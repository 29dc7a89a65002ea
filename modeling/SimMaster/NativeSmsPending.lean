import SimMaster.NativeInboxCapacity
import SimMaster.NativeSmsReplay

/-!
# A replay succeeds

What a replay does to the parts that wait in its scope, in an inbox with unique ids and under the
laws of the calendar: reading the rows leaves every part where it is, every complete group is
promoted, and exactly the parts of these groups are finished. So the inbox can be followed as the
list of its waiting parts (`pendingParts`).
-/

namespace SimMaster

open Rust List

/-- What the code relies on: RFC 3339 texts are not blank and have no white space, and the text of
an instant of this or the last century reads back. -/
structure Chrono.Lawful (chrono : Chrono) : Prop where
  nonempty : ∀ timestamp, chrono.toRfc3339 timestamp ≠ []
  plain : ∀ timestamp, ∀ c ∈ chrono.toRfc3339 timestamp, isWhitespace c = false
  reads : ∀ text, chrono.Prints text → ∃ timestamp, chrono.parseFromRfc3339 text = some timestamp

namespace NativeSms

open Method NativeInbox

variable {chrono : Chrono} {hashes : Hashes} {clock : ℕ → ℤ} {line sim text : Str}
  {dedupe : Bool} {db next : Database}

theorem normalize_prints (hlawful : chrono.Lawful) (h : chrono.Prints text) :
    ∃ stamp, normalizeSmsTimestampForDisplay chrono text = some stamp := by
  obtain ⟨timestamp, hread⟩ := hlawful.reads text h
  obtain ⟨-, -, -, -, -, -, -, printed, -, -, -, rfl⟩ := h
  have hplain := hlawful.plain printed
  have hspace : (chrono.toRfc3339 printed).map (fun c => if c = ' ' then 'T' else c) =
      chrono.toRfc3339 printed := by
    refine (map_congr_left fun c hc => ?_).trans (map_id _)
    refine if_neg fun hspace => ?_
    have hword := hplain c hc
    rw [hspace] at hword
    exact absurd hword (by decide)
  refine ⟨chrono.toRfc3339 timestamp, ?_⟩
  rw [normalizeSmsTimestampForDisplay, trim_of_all hplain,
    if_neg (by simpa using hlawful.nonempty printed), parseSmsTimestampWithOffset, hspace, hread]
  rfl

/-! ## Waiting parts -/

variable {row : InboxPdu} {part : Part}

theorem readPart_some (h : readPart chrono hashes row = some part) :
    part.id = row.id ∧ part.hex = row.hex ∧ row.kind = .deliver ∧
      chrono.Prints part.message.serviceCenterTimestamp := by
  rw [readPart] at h
  split at h
  next part' hrow =>
    obtain rfl := Option.some.inj h
    rw [readRow] at hrow
    split at hrow
    next bytes =>
      split at hrow
      next =>
        rw [readReport] at hrow
        split at hrow
        · split at hrow
          · cases hrow
          · cases hrow
        · cases hrow
      next hkind =>
        rw [readDeliver] at hrow
        split at hrow
        next decoded hdecoded =>
          split at hrow
          · obtain rfl := Reading.part.inj hrow
            exact ⟨rfl, rfl, hkind, parseModemDeliver_prints hdecoded⟩
          · cases hrow
        next => cases hrow
    next => cases hrow
  next => cases h

/-- The part a row holds that waits in the scope. -/
def rowPart (chrono : Chrono) (hashes : Hashes) (line sim : Str) (row : InboxRow) : Option Part :=
  if row.waits line sim then readPart chrono hashes row.toPdu else none

/-- The parts that wait in the scope. -/
def pendingParts (chrono : Chrono) (hashes : Hashes) (line sim : Str) (db : Database) : List Part :=
  db.inbox.filterMap (rowPart chrono hashes line sim)

theorem filterMap_readPart (rows : List InboxRow) :
    ((rows.filter (·.waits line sim)).map (·.toPdu)).filterMap (readPart chrono hashes) =
      rows.filterMap (rowPart chrono hashes line sim) := by
  rw [filterMap_map, filterMap_filter]
  rfl

theorem rowPart_some {row : InboxRow} (h : rowPart chrono hashes line sim row = some part) :
    row.waits line sim = true ∧ readPart chrono hashes row.toPdu = some part ∧
    part.id = row.id := by
  rw [rowPart] at h
  split at h
  next hwaits => exact ⟨hwaits, h, (readPart_some h).1⟩
  next => cases h

theorem rowPart_of_not_waits {row : InboxRow} (h : row.waits line sim = false) :
    rowPart chrono hashes line sim row = none := by
  rw [rowPart, h]
  rfl

/-- The rows change in place, and of the parts exactly those with the given ids are finished. -/
def Finishes (chrono : Chrono) (hashes : Hashes) (line sim : Str) (db next : Database)
    (ids : List ℕ) : Prop :=
  ∃ f, Rewrite db.inbox f ∧ next.inbox = db.inbox.map f ∧ next.nextInboxId = db.nextInboxId ∧
    ∀ row ∈ db.inbox, rowPart chrono hashes line sim (f row) =
      if row.id ∈ ids then none else rowPart chrono hashes line sim row

variable {ids : List ℕ}

theorem Finishes.rewrites (h : Finishes chrono hashes line sim db next ids) : Rewrites db next := by
  obtain ⟨f, hf, hinbox, hnext, -⟩ := h
  exact ⟨⟨f, hf, hinbox⟩, hnext⟩

theorem Finishes.refl (db : Database) : Finishes chrono hashes line sim db db [] :=
  ⟨id, .id _, (map_id _).symm, rfl, fun row _ => by rw [if_neg (by simp)]; rfl⟩

variable {ids' : List ℕ}

theorem Finishes.trans {third : Database} (h : Finishes chrono hashes line sim db next ids)
    (h' : Finishes chrono hashes line sim next third ids') :
    Finishes chrono hashes line sim db third (ids ++ ids') := by
  obtain ⟨f, hf, hinbox, hnext, hparts⟩ := h
  obtain ⟨g, hg, hinbox', hnext', hparts'⟩ := h'
  have hmem : ∀ row ∈ db.inbox, f row ∈ next.inbox := fun row hrow => by
    rw [hinbox]
    exact mem_map_of_mem hrow
  refine ⟨g ∘ f, ⟨fun row => ?_, fun row hrow hopen => ?_⟩, ?_, hnext'.trans hnext, ?_⟩
  · obtain ⟨hid, hkey⟩ := hg.same (f row)
    obtain ⟨hid', hkey'⟩ := hf.same row
    exact ⟨hid.trans hid', hkey.trans hkey'⟩
  · exact hf.done row hrow (hg.done (f row) (hmem row hrow) hopen)
  · rw [hinbox', hinbox, map_map]
  · intro row hrow
    rw [Function.comp_apply, hparts' (f row) (hmem row hrow), hparts row hrow, (hf.same row).1]
    simp only [mem_append]
    split
    next hgone => rw [if_pos (Or.inr hgone)]
    next hstays =>
      split
      next hgone => rw [if_pos (Or.inl hgone)]
      next hstays' => rw [if_neg (by tauto)]

/-- The parts that still wait. -/
theorem Finishes.pendingParts (h : Finishes chrono hashes line sim db next ids) :
    pendingParts chrono hashes line sim next =
      (pendingParts chrono hashes line sim db).filter (·.id ∉ ids) := by
  obtain ⟨f, -, hinbox, -, hparts⟩ := h
  rw [NativeSms.pendingParts, NativeSms.pendingParts, hinbox, filterMap_map, filter_filterMap]
  refine filterMap_congr fun row hrow => ?_
  rw [Function.comp_apply, hparts row hrow]
  cases hpart : rowPart chrono hashes line sim row with
  | none => simp
  | some part =>
    rw [Option.filter_some, (rowPart_some hpart).2.2]
    by_cases hgone : row.id ∈ ids
    · simp [hgone]
    · simp [hgone]

/-! ## Reading the rows -/

/-- Only the row with the id changes, in place, and it holds no part. -/
def Settles (chrono : Chrono) (hashes : Hashes) (line sim : Str) (db next : Database) (id : ℕ) :
    Prop :=
  ∃ f, Rewrite db.inbox f ∧ next.inbox = db.inbox.map f ∧ next.nextInboxId = db.nextInboxId ∧
    next.received = db.received ∧ ∀ row ∈ db.inbox, (row.id ≠ id → f row = row) ∧
      (row.id = id → rowPart chrono hashes line sim (f row) = none ∧
        rowPart chrono hashes line sim row = none)

variable {id : ℕ}

theorem Settles.finishes (h : Settles chrono hashes line sim db next id) :
    Finishes chrono hashes line sim db next [] ∧ next.received = db.received := by
  obtain ⟨f, hf, hinbox, hnext, hreceived, hrows⟩ := h
  refine ⟨⟨f, hf, hinbox, hnext, fun row hrow => ?_⟩, hreceived⟩
  rw [if_neg (by simp)]
  by_cases hid : row.id = id
  · obtain ⟨hafter, hbefore⟩ := (hrows row hrow).2 hid
    rw [hafter, hbefore]
  · rw [(hrows row hrow).1 hid]

/-- The row of a reading: it waits in the scope. -/
def Source (line sim : Str) (db : Database) (row : InboxPdu) : Prop :=
  ∃ source ∈ db.inbox, source.waits line sim = true ∧ source.toPdu = row

theorem Settles.source (h : Settles chrono hashes line sim db next id)
    (hrow : Source line sim db row) (hid : row.id ≠ id) : Source line sim next row := by
  obtain ⟨f, -, hinbox, -, -, hrows⟩ := h
  obtain ⟨source, hsource, hwaits, rfl⟩ := hrow
  refine ⟨source, ?_, hwaits, rfl⟩
  rw [hinbox]
  exact mem_map.2 ⟨source, hsource, (hrows source hsource).1 hid⟩

theorem readPart_report (h : row.kind = .report) : readPart chrono hashes row = none := by
  cases hread : readPart chrono hashes row with
  | none => rfl
  | some part =>
    have hkind := (readPart_some hread).2.2.1
    rw [h] at hkind
    cases hkind

theorem rowPart_report {row : InboxRow} (h : row.kind = .report) :
    rowPart chrono hashes line sim row = none := by
  rw [rowPart, readPart_report h, ite_self]

theorem hashValid_digest (data : Bytes) : hashValid (digest hashes data) = true := by
  have hhex : ∀ data : Bytes, utf8Len (hexLower data) = 2 * data.length ∧
      (hexLower data).all isAsciiHexdigit = true := by
    intro data
    induction data with
    | nil => exact ⟨rfl, rfl⟩
    | cons b data ih =>
      have hdigit : ∀ n < 16, (Nat.digitChar n).utf8Size = 1 ∧
          isAsciiHexdigit (Nat.digitChar n) = true := by decide
      have hlt : b.toNat < 256 := UInt8.toNat_lt b
      obtain ⟨hhigh, hhigh'⟩ := hdigit (b.toNat / 16) (by omega)
      obtain ⟨hlow, hlow'⟩ := hdigit (b.toNat % 16) (by omega)
      rw [hexLower, flatMap_cons, utf8Len, map_append, sum_append, all_append]
      rw [utf8Len, hexLower] at ih
      refine ⟨?_, ?_⟩
      · rw [ih.1]
        simp [hhigh, hlow]
        omega
      · simp [hhigh', hlow', ih.2]
  rw [hashValid, digest, (hhex _).1, (hhex _).2, hashes.sha256_length]
  rfl

variable {recipient : Str}

theorem recipientKey_valid {number : Str}
    (h : recipientKey hashes number = some recipient) : hashValid recipient = true := by
  rw [recipientKey.eq_def] at h
  simp only [Option.ite_none_left_eq_some] at h
  obtain rfl := Option.some.inj h.2
  exact hashValid_digest _

/-- A row that is not one of the kinds is quarantined. -/
theorem quarantine_settles (hnumbered : Numbered db) (hscope : scopeValid line sim = .ok ())
    (hrow : Source line sim db row) (hread : readPart chrono hashes row = none) :
    ∃ next, (quarantineNativePdu row.id line sim).call db = (.ok (), next) ∧
      Settles chrono hashes line sim db next row.id := by
  refine ⟨db.quarantine row.id line sim, ?_, ?_⟩
  · rw [quarantineNativePdu, call_lift_bind, hscope]
    rfl
  · obtain ⟨source, hsource, hwaits, rfl⟩ := hrow
    refine ⟨_, Rewrite.ite (p := fun row => row.id == source.id && row.waits line sim)
      (f := fun row => { row with
        state := .quarantined, summary := some .unsupportedOrInvalidPdu })
      (fun row => ⟨rfl, rfl⟩) ?_, rfl, rfl, rfl, fun row hrow => ⟨?_, ?_⟩⟩
    · intro row _ hp _
      rw [Bool.and_eq_true] at hp
      exact isOpen_of_pending (waits_state hp.2)
    · intro hid
      rw [if_neg]
      rw [Bool.and_eq_true, beq_iff_eq]
      exact fun hboth => hid hboth.1
    · intro hid
      obtain rfl := hnumbered.eq_of_id hrow hsource hid
      rw [if_pos (by simp [hwaits]), rowPart, rowPart, hread, ite_self]
      exact ⟨if_neg (by simp [InboxRow.waits]), rfl⟩

/-- A report that waits is consumed, or quarantined when its time is out of range. -/
theorem consumeReport_settles (hnumbered : Numbered db) (hscope : scopeValid line sim = .ok ())
    (hlawful : chrono.Lawful) {report : NativeReport} {now : ℤ}
    (hline : report.lineId = line) (hsim : report.simKey = sim) (hid : report.id = row.id)
    (hrecipient : hashValid report.recipientKey = true) (hprints : chrono.Prints report.scts)
    (hrow : Source line sim db row) (hkind : row.kind = .report) :
    ∃ delivered next, (consumeNativeReport chrono report now).call db = (.ok delivered, next) ∧
      Settles chrono hashes line sim db next row.id := by
  obtain ⟨time, htime⟩ := hlawful.reads _ hprints
  have hscope' : scopeValid report.lineId report.simKey = .ok () := by rw [hline, hsim, hscope]
  rw [consumeNativeReport, call_lift_bind, hscope']
  rw [call_guard, if_neg (by simp [hrecipient]), htime]
  dsimp only
  split
  · -- out of range
    rw [hid, hline, hsim]
    have hquarantine : ∃ next, (quarantineNativePdu row.id line sim).call db = (.ok (), next) ∧
        Settles chrono hashes line sim db next row.id :=
      quarantine_settles hnumbered hscope hrow (readPart_report hkind)
    obtain ⟨next, hcall, hsettles⟩ := hquarantine
    rw [quarantineNativePdu, call_lift_bind, hscope] at hcall
    obtain rfl := congrArg Prod.snd hcall
    exact ⟨none, _, rfl, hsettles⟩
  · rw [call_get_bind]
    obtain ⟨source, hsource, hwaits, rfl⟩ := hrow
    have hfind : db.waitingReport report = some source := by
      cases hfind : db.waitingReport report with
      | none =>
        have hnone := find?_eq_none.1 hfind source hsource
        refine absurd ?_ hnone
        have hk : source.kind = .report := hkind
        simp [hline, hsim, hid, hwaits, hk, InboxRow.toPdu]
      | some found =>
        obtain ⟨hmem, -, hfound⟩ := waitingReport_some hfind
        rw [hnumbered.eq_of_id hmem hsource (hfound.trans hid)]
    rw [hfind]
    refine ⟨_, _, rfl, ?_⟩
    obtain ⟨hinbox, hnext⟩ := applyCorrelated_inbox db report (chrono.timestamp time)
    refine ⟨_, Rewrite.ite (p := fun row => row.id == source.id) ?_ ?_,
      congrArg (map _) hinbox, hnext, ?_, fun row hrow => ⟨?_, ?_⟩⟩
    · intro row
      split
      · exact ⟨rfl, rfl⟩
      · exact ⟨rfl, rfl⟩
    · intro row hrow hsame _
      rw [hnumbered.eq_of_id hrow hsource (beq_iff_eq.1 hsame)]
      exact isOpen_of_pending (waits_state hwaits)
    · change (db.applyCorrelated report (chrono.timestamp time)).2.received = db.received
      rw [Database.applyCorrelated]
      split
      · rw [Database.applyReport]
        split
        · rfl
        · rfl
      · rfl
    · intro hother
      rw [if_neg]
      rw [beq_iff_eq]
      exact hother
    · intro hsame
      obtain rfl := hnumbered.eq_of_id hrow hsource hsame
      refine ⟨rowPart_report ?_, rowPart_report hkind⟩
      split
      · split
        · exact hkind
        · exact hkind
      · exact hkind

theorem readRow_report {report : ModemStatusReport}
    (h : readRow chrono hashes row = .report report recipient) :
    row.kind = .report ∧ hashValid recipient = true ∧
      chrono.Prints report.serviceCenterTimestamp := by
  rw [readRow] at h
  split at h
  next bytes =>
    split at h
    next hkind =>
      rw [readReport] at h
      split at h
      next report' hreport =>
        split at h
        next recipient' hrecipient =>
          obtain ⟨rfl, rfl⟩ := Reading.report.inj h
          exact ⟨hkind, recipientKey_valid hrecipient, parseModemStatusReport_prints hreport⟩
        next => cases h
      next => cases h
    next =>
      rw [readDeliver] at h
      split at h
      · split at h
        · cases h
        · cases h
      · cases h
  next => cases h

/-- **Reading the rows** succeeds: it finishes no part and gathers those the rows hold. -/
theorem collectParts_ok (clock : ℕ → ℤ) (hscope : scopeValid line sim = .ok ())
    (hlawful : chrono.Lawful) {rows : List InboxPdu} (hids : (rows.map (·.id)).Nodup) :
    ∀ db, InboxInvariant db → (∀ row ∈ rows, Source line sim db row) →
      ∃ next, (collectParts chrono hashes clock line sim rows).call db =
          (.ok (rows.filterMap (readPart chrono hashes)), next) ∧
        Finishes chrono hashes line sim db next [] ∧ next.received = db.received := by
  induction rows with
  | nil => exact fun db _ _ => ⟨db, rfl, .refl db, rfl⟩
  | cons row rows ih =>
    intro db hinv hsources
    rw [map_cons, nodup_cons] at hids
    have hrow := hsources row mem_cons_self
    have hrest : ∀ row ∈ rows, Source line sim db row :=
      fun row hrow => hsources row (mem_cons_of_mem _ hrow)
    -- the rows after one that was settled still wait
    have hsettled : ∀ next, Settles chrono hashes line sim db next row.id →
        InboxInvariant next ∧ ∀ row ∈ rows, Source line sim next row := by
      intro next hsettles
      refine ⟨hinv.rewrites hsettles.finishes.1.rewrites, fun later hlater => ?_⟩
      refine hsettles.source (hrest later hlater) fun hid => hids.1 ?_
      rw [← hid]
      exact mem_map_of_mem hlater
    rw [collectParts, filterMap_cons, readPart]
    split
    next part hread =>
      obtain ⟨next, hcall, hfinishes, hreceived⟩ := ih hids.2 db hinv hrest
      rw [call_bind, hcall, hread]
      exact ⟨next, rfl, hfinishes, hreceived⟩
    next report recipient hread =>
      obtain ⟨hkind, hrecipient, hprints⟩ := readRow_report hread
      obtain ⟨delivered, settled, hcall, hsettles⟩ :
          ∃ delivered settled, (consumeNativeReport chrono {
            id := row.id, lineId := line, simKey := sim, recipientKey := recipient
            reference := report.reference, scts := report.serviceCenterTimestamp
            status := report.status } (clock row.id)).call db = (.ok delivered, settled) ∧
          Settles chrono hashes line sim db settled row.id :=
        consumeReport_settles hinv.numbered hscope hlawful rfl rfl rfl hrecipient hprints hrow hkind
      obtain ⟨hinv', hrest'⟩ := hsettled settled hsettles
      obtain ⟨next, hcall', hfinishes, hreceived⟩ := ih hids.2 settled hinv' hrest'
      rw [call_bind, hcall, hread]
      exact ⟨next, hcall', hsettles.finishes.1.trans hfinishes,
        hreceived.trans hsettles.finishes.2⟩
    next hread =>
      obtain ⟨settled, hcall, hsettles⟩ :
          ∃ settled, (quarantineNativePdu row.id line sim).call db = (.ok (), settled) ∧
          Settles chrono hashes line sim db settled row.id :=
        quarantine_settles hinv.numbered hscope hrow (by rw [readPart, hread])
      obtain ⟨hinv', hrest'⟩ := hsettled settled hsettles
      obtain ⟨next, hcall', hfinishes, hreceived⟩ := ih hids.2 settled hinv' hrest'
      rw [call_bind, hcall, hread]
      exact ⟨next, hcall', hsettles.finishes.1.trans hfinishes,
        hreceived.trans hsettles.finishes.2⟩

/-! ## Promoting the groups -/

theorem mem_pendingParts (h : part ∈ pendingParts chrono hashes line sim db) :
    ∃ row ∈ db.inbox, row.waits line sim = true ∧ row.id = part.id ∧ row.kind = .deliver ∧
      chrono.Prints part.message.serviceCenterTimestamp := by
  obtain ⟨row, hrow, hpart⟩ := mem_filterMap.1 h
  obtain ⟨hwaits, hread, hid⟩ := rowPart_some hpart
  obtain ⟨-, -, hkind, hprints⟩ := readPart_some hread
  exact ⟨row, hrow, hwaits, hid.symm, hkind, hprints⟩

theorem promote_finishes (message : InboxMessage) (stamp : Str) :
    Finishes chrono hashes line sim db (db.promote message stamp).2 message.ids := by
  have hdone : Finishes chrono hashes line sim db (db.markDone message.ids) message.ids := by
    refine ⟨_, Rewrite.ite (p := fun row => message.ids.contains row.id)
      (f := fun row => { row with state := .done, pdu := [] }) (fun row => ⟨rfl, rfl⟩) ?_, rfl, rfl,
      fun row _ => ?_⟩
    · rintro row _ _ ⟨⟩
    · by_cases hmem : row.id ∈ message.ids
      · rw [if_pos (contains_iff_mem.2 hmem), if_pos hmem]
        exact rowPart_of_not_waits (by simp [InboxRow.waits])
      · rw [if_neg (by simpa using hmem), if_neg hmem]
  rw [Database.promote]
  split
  · exact hdone
  · exact hdone

theorem promote_received (message : InboxMessage) (stamp : Str) :
    ∀ row ∈ (db.promote message stamp).2.received, row ∈ db.received ∨
      row.dedupKey = message.dedupKey := by
  intro row hrow
  rw [Database.promote] at hrow
  split at hrow
  · exact Or.inl (mem_of_mem_filter hrow)
  · rcases mem_append.1 (mem_of_mem_filter hrow) with hrow | hrow
    · exact Or.inl hrow
    · rw [mem_singleton.1 hrow]
      exact Or.inr rfl

theorem promoteNativeSms_ok (hscope : scopeValid line sim = .ok ()) (hlawful : chrono.Lawful)
    {message : InboxMessage} (hline : message.lineId = line) (hsim : message.simKey = sim)
    (hprints : chrono.Prints message.timestamp) (hne : message.ids ≠ [])
    (hlength : message.ids.length ≤ 255) (hnodup : message.ids.Nodup)
    (hpromotable : ∀ id ∈ message.ids, ∃ row ∈ db.inbox, row.waits line sim = true ∧ row.id = id ∧
      row.kind = .deliver) :
    ∃ stamp, normalizeSmsTimestampForDisplay chrono message.timestamp = some stamp ∧
      (promoteNativeSms chrono message).call db =
        (.ok (db.promote message stamp).1, (db.promote message stamp).2) := by
  obtain ⟨stamp, hstamp⟩ := normalize_prints hlawful hprints
  have hscope' : scopeValid message.lineId message.simKey = .ok () := by rw [hline, hsim, hscope]
  have hready : db.promotable message.ids message.lineId message.simKey = true := by
    refine all_eq_true.2 fun id hid => ?_
    obtain ⟨row, hrow, hwaits, hsame, hkind⟩ := hpromotable id hid
    refine any_eq_true.2 ⟨row, hrow, ?_⟩
    simp [hline, hsim, hwaits, hsame, hkind]
  refine ⟨stamp, hstamp, ?_⟩
  rw [promoteNativeSms, call_lift_bind, hscope']
  rw [call_guard, if_neg (by simp [hne, hnodup, hlength]), hstamp]
  rw [call_get_bind, call_guard, if_neg (by simp [hready])]
  rfl

theorem Finishes.congr (h : Finishes chrono hashes line sim db next ids)
    (hids : ∀ id, id ∈ ids ↔ id ∈ ids') : Finishes chrono hashes line sim db next ids' := by
  obtain ⟨f, hf, hinbox, hnext, hparts⟩ := h
  refine ⟨f, hf, hinbox, hnext, fun row hrow => ?_⟩
  rw [hparts row hrow]
  simp only [hids]

/-- A promotion of sorted parts, and what is stored for it. -/
structure Promoted (chrono : Chrono) (hashes : Hashes) (line sim : Str) (dedupe : Bool)
    (promotion : Promotion) : Prop where
  message : ∀ first ∈ promotion.parts.head?,
    promotion.message = inboxMessage hashes line sim dedupe first promotion.parts
  stored : ∀ sms ∈ promotion.stored, sms.direction = .incoming ∧ sms.status = .received ∧
    sms.lineId = line ∧ sms.phoneNumber = promotion.message.number ∧
    sms.content = promotion.message.text ∧ sms.pdu = some promotion.message.marker ∧
    normalizeSmsTimestampForDisplay chrono promotion.message.timestamp = some sms.timestamp

/-- A promotion whose dedup key was not known before, nor committed by an earlier one, is stored. -/
def StoresNew (line sim : Str) (db : Database) (promotions : List Promotion) : Prop :=
  ∀ earlier (promotion : Promotion) later, promotions = earlier ++ promotion :: later →
    db.hasReceived line sim promotion.message.dedupKey = false →
    (∀ other ∈ earlier, other.message.dedupKey ≠ promotion.message.dedupKey) →
    promotion.stored.isSome

theorem hasReceived_of_received {key : Str} (hnew : db.hasReceived line sim key = false)
    (hreceived : ∀ row ∈ next.received, row ∈ db.received ∨ row.dedupKey ≠ key) :
    next.hasReceived line sim key = false := by
  rw [Database.hasReceived, any_eq_false] at hnew ⊢
  intro row hrow
  rcases hreceived row hrow with hold | hother
  · exact hnew row hold
  · simp [hother]

/-- **Promoting groups** whose parts wait succeeds, and finishes exactly these parts. -/
theorem promoteGroups_ok (dedupe : Bool) (hscope : scopeValid line sim = .ok ())
    (hlawful : chrono.Lawful) {groups : List (List Part)} (hids : (groups.flatten.map (·.id)).Nodup)
    (hsizes : ∀ group ∈ groups, group ≠ [] ∧ group.length ≤ 255) :
    ∀ db, (∀ group ∈ groups, ∀ part ∈ group, part ∈ pendingParts chrono hashes line sim db) →
      ∃ promotions next, (promoteGroups chrono hashes line sim dedupe groups).call db =
          (.ok promotions, next) ∧
        promotions.map (·.parts) = groups.map (·.insertionSort Part.precedes) ∧
        (∀ promotion ∈ promotions, Promoted chrono hashes line sim dedupe promotion) ∧
        Finishes chrono hashes line sim db next (groups.flatten.map (·.id)) ∧
        StoresNew line sim db promotions := by
  induction groups with
  | nil =>
    refine fun db _ => ⟨[], db, rfl, rfl, by simp, .refl db, ?_⟩
    intro earlier promotion later hsplit
    simp at hsplit
  | cons group groups ih =>
    intro db hwait
    rw [flatten_cons, map_append, nodup_append] at hids
    obtain ⟨hgroup, hgroups, hdisjoint⟩ := hids
    obtain ⟨hne, hlength⟩ := hsizes group mem_cons_self
    have hperm := perm_insertionSort Part.precedes group
    have hmem : ∀ id, id ∈ (group.insertionSort Part.precedes).map (·.id) ↔
        id ∈ group.map (·.id) := fun id => (hperm.map (·.id)).mem_iff
    rw [promoteGroups]
    split
    next hsorted => exact absurd (perm_nil.1 (hsorted ▸ hperm.symm)) hne
    next first parts hsorted =>
      rw [hsorted] at hmem hperm
      have hparts : ∀ part ∈ first :: parts, part ∈ pendingParts chrono hashes line sim db :=
        fun part hpart => hwait group mem_cons_self part (hperm.mem_iff.1 hpart)
      obtain ⟨stamp, hstamp, hcall⟩ : ∃ stamp, normalizeSmsTimestampForDisplay chrono
          (inboxMessage hashes line sim dedupe first (first :: parts)).timestamp = some stamp ∧
          (promoteNativeSms chrono
            (inboxMessage hashes line sim dedupe first (first :: parts))).call db =
          (.ok (db.promote (inboxMessage hashes line sim dedupe first (first :: parts)) stamp).1,
            (db.promote (inboxMessage hashes line sim dedupe first (first :: parts)) stamp).2) := by
        refine promoteNativeSms_ok hscope hlawful rfl rfl ?_ (by simp [inboxMessage]) ?_ ?_ ?_
        · obtain ⟨-, -, -, -, -, hprints⟩ := mem_pendingParts (hparts first mem_cons_self)
          exact hprints
        · rw [inboxMessage, length_map, hperm.length_eq]
          exact hlength
        · exact (hperm.map (·.id)).nodup_iff.2 hgroup
        · intro id hid
          obtain ⟨part, hpart, rfl⟩ := mem_map.1 hid
          obtain ⟨row, hrow, hwaits, hsame, hkind, -⟩ := mem_pendingParts (hparts part hpart)
          exact ⟨row, hrow, hwaits, hsame, hkind⟩
      generalize hmessage :
        inboxMessage hashes line sim dedupe first (first :: parts) = message at *
      have hmessageIds : message.ids = (first :: parts).map (·.id) := by rw [← hmessage]; rfl
      have hfinishes : Finishes chrono hashes line sim db (db.promote message stamp).2
          (group.map (·.id)) :=
        (promote_finishes message stamp).congr fun id => by rw [hmessageIds]; exact hmem id
      have hwait' : ∀ later ∈ groups, ∀ part ∈ later,
          part ∈ pendingParts chrono hashes line sim (db.promote message stamp).2 := by
        intro later hlater part hpart
        rw [hfinishes.pendingParts]
        refine mem_filter.2 ⟨hwait later (mem_cons_of_mem _ hlater) part hpart, ?_⟩
        refine decide_eq_true fun hid => hdisjoint _ hid part.id ?_ rfl
        exact mem_map_of_mem (mem_flatten.2 ⟨later, hlater, hpart⟩)
      obtain ⟨promotions, next, hcall', hpartsOf, hpromoted, hrest, hstores⟩ :=
        ih hgroups (fun later hlater => hsizes later (mem_cons_of_mem _ hlater)) _ hwait'
      refine ⟨_, next,
        by rw [call_bind, hcall]; dsimp only; rw [call_bind, hcall']; rfl, ?_, ?_, ?_, ?_⟩
      · rw [map_cons, map_cons, hpartsOf, hsorted]
      · intro promotion hpromotion
        rcases mem_cons.1 hpromotion with rfl | hpromotion
        · refine ⟨?_, ?_⟩
          · rintro first' ⟨⟩
            exact hmessage.symm
          · intro sms hsms
            rw [Database.promote] at hsms
            split at hsms
            · cases hsms
            · obtain rfl := Option.some.inj hsms
              have hlineOf : message.lineId = line := by rw [← hmessage]; rfl
              exact ⟨rfl, rfl, hlineOf, rfl, rfl, rfl, hstamp⟩
        · exact hpromoted promotion hpromotion
      · rw [flatten_cons, map_append]
        exact hfinishes.trans hrest
      · intro earlier promotion later hsplit hnew hothers
        cases earlier with
        | nil =>
          obtain ⟨rfl, -⟩ := cons.inj hsplit
          have hscopes : message.lineId = line ∧ message.simKey = sim := by
            rw [← hmessage]
            exact ⟨rfl, rfl⟩
          rw [Database.promote, hscopes.1, hscopes.2, hnew]
          rfl
        | cons head earlier =>
          obtain ⟨rfl, htail⟩ := cons.inj hsplit
          refine hstores earlier promotion later htail ?_ fun other hother =>
            hothers other (mem_cons_of_mem _ hother)
          refine hasReceived_of_received hnew fun row hrow => ?_
          rcases promote_received message stamp row hrow with hold | hkey
          · exact Or.inl hold
          · refine Or.inr ?_
            rw [hkey]
            exact hothers _ mem_cons_self

/-! ## The replay -/

theorem pendingParts_ids (hinv : InboxInvariant db) :
    ((pendingParts chrono hashes line sim db).map (·.id)).Nodup := by
  rw [Nodup, pairwise_map, pendingParts, pairwise_filterMap]
  refine hinv.numbered.1.imp fun {row other} hlt part hpart part' hpart' => ?_
  rw [(rowPart_some hpart).2.2, (rowPart_some hpart').2.2]
  exact Nat.ne_of_lt hlt

theorem pendingParts_eq_of_id (hinv : InboxInvariant db) {part' : Part}
    (hpart : part ∈ pendingParts chrono hashes line sim db)
    (hpart' : part' ∈ pendingParts chrono hashes line sim db) (hid : part.id = part'.id) :
    part = part' := inj_on_of_nodup_map (pendingParts_ids hinv) hpart hpart' hid

/-- **A replay succeeds**: it promotes the complete groups of the waiting parts and finishes these
parts. -/
theorem promotePending_ok (hashes : Hashes) (clock : ℕ → ℤ) (dedupe : Bool)
    (hinv : InboxInvariant db)
    (hscope : scopeValid line sim = .ok ()) (hlawful : chrono.Lawful) :
    ∃ promotions next, (promotePending chrono hashes clock line sim dedupe).call db =
        (.ok promotions, next) ∧
      promotions.map (·.parts) = (completeGroups (pendingParts chrono hashes line sim db)).map
        (·.insertionSort Part.precedes) ∧
      (∀ promotion ∈ promotions, Promoted chrono hashes line sim dedupe promotion) ∧
      Finishes chrono hashes line sim db next
        ((completeGroups (pendingParts chrono hashes line sim db)).flatten.map (·.id)) ∧
      StoresNew line sim db promotions := by
  have hids : (((db.inbox.filter (·.waits line sim)).map (·.toPdu)).map (·.id)).Nodup := by
    rw [map_map, Nodup, pairwise_map]
    exact (hinv.numbered.1.sublist filter_sublist).imp fun hlt => Nat.ne_of_lt hlt
  have hsources : ∀ row ∈ (db.inbox.filter (·.waits line sim)).map (·.toPdu),
      Source line sim db row := by
    intro row hrow
    obtain ⟨source, hsource, rfl⟩ := mem_map.1 hrow
    obtain ⟨hmem, hwaits⟩ := mem_filter.1 hsource
    exact ⟨source, hmem, hwaits, rfl⟩
  obtain ⟨collected, hcall, hfinishes, hreceived⟩ : ∃ collected,
      (collectParts chrono hashes clock line sim
        ((db.inbox.filter (·.waits line sim)).map (·.toPdu))).call db =
        (.ok (((db.inbox.filter (·.waits line sim)).map (·.toPdu)).filterMap
          (readPart chrono hashes)), collected) ∧
      Finishes chrono hashes line sim db collected [] ∧ collected.received = db.received :=
    collectParts_ok clock hscope hlawful hids db hinv hsources
  rw [filterMap_readPart] at hcall
  have hwaiting : pendingParts chrono hashes line sim collected =
      pendingParts chrono hashes line sim db := by
    rw [hfinishes.pendingParts]
    simp
  have hgroups : ∀ group ∈ completeGroups (pendingParts chrono hashes line sim db),
      ∀ part ∈ group, part ∈ pendingParts chrono hashes line sim collected := by
    intro group hgroup part hpart
    rw [hwaiting]
    exact (completeGroups_unmixed hgroup).1 hpart
  have hwaitingIds : ((pendingParts chrono hashes line sim db).map (·.id)).Nodup :=
    pendingParts_ids hinv
  have hnodup := completeGroups_nodup hwaitingIds.of_map
  have hgroupIds : ((completeGroups (pendingParts chrono hashes line sim db)).flatten.map
      (·.id)).Nodup := by
    refine hnodup.map_on fun part hpart part' hpart' hid => ?_
    obtain ⟨group, hgroup, hmem⟩ := mem_flatten.1 hpart
    obtain ⟨group', hgroup', hmem'⟩ := mem_flatten.1 hpart'
    exact pendingParts_eq_of_id hinv ((completeGroups_unmixed hgroup).1 hmem)
      ((completeGroups_unmixed hgroup').1 hmem') hid
  obtain ⟨promotions, next, hpromote, hparts, hpromoted, hrest, hstores⟩ :=
    promoteGroups_ok dedupe hscope hlawful hgroupIds (fun group hgroup =>
      completeGroups_size hgroup)
      collected hgroups
  refine ⟨promotions, next, ?_, hparts, hpromoted, hfinishes.trans hrest, ?_⟩
  · rw [promotePending, call_get_bind, call_lift_bind, hinv.pending_complete hscope]
    dsimp only
    rw [call_bind, hcall]
    exact hpromote
  · intro earlier promotion later hsplit hnew hothers
    refine hstores earlier promotion later hsplit ?_ hothers
    rw [Database.hasReceived, hreceived]
    exact hnew

end NativeSms

end SimMaster
