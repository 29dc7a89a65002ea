import SimMaster.NativeSmsPending

/-!
# A concatenated message is promoted exactly once

The segments of one message are staged in any order and any number of times, and the inbox is
replayed in between. Two phases tell the whole story. While segments are missing the waiting parts
of the group are those staged so far (`Collecting`), and no replay promotes them. The first replay
that finds all of them promotes the message (`Collecting.completes`), after which every staging
finds its finished row (`Finished`). What is promoted does not depend on the order. Whether it is
stored as a new message is up to the dedup key, which another message may have committed before.
-/

namespace SimMaster

namespace NativeSms

open Rust Method NativeInbox List Machine Bool

/-- A segment as it is staged, with what it reads as. -/
structure Segment where
  fingerprint : Str
  pdu : Str
  decoded : ModemDeliver
  scts : ℤ

/-- The part the segment is once its row has an id. -/
def Segment.part (segment : Segment) (id : ℕ) : Part where
  id
  hex := segment.pdu.map Char.toUpper
  decoded := segment.decoded
  scts := segment.scts

def Segment.sequence (segment : Segment) : UInt8 := segment.decoded.message.segmentSequence

/-- The segment is accepted by the staging and reads as stated. -/
structure Segment.Reads (chrono : Chrono) (segment : Segment) : Prop where
  valid : hashValid segment.fingerprint = true ∧ pduValid segment.pdu = true
  parses : ∃ bytes stamp, unhex (segment.pdu.map Char.toUpper) = some bytes ∧
    parseModemDeliver chrono bytes = .ok segment.decoded ∧
    chrono.parseFromRfc3339 segment.decoded.message.serviceCenterTimestamp = some stamp ∧
    chrono.timestamp stamp = segment.scts

/-- The segments of one message, in the order of their sequence numbers. -/
structure Concatenated (chrono : Chrono) (key : GroupKey) (segments : List Segment) : Prop where
  reads : ∀ segment ∈ segments, segment.Reads chrono
  distinct : (segments.map (·.fingerprint)).Nodup
  several : 2 ≤ segments.length
  total : key.total.toNat = segments.length
  shared : ∀ segment ∈ segments, (segment.part 0).groupKey = some key
  numbered : segments.map (·.sequence.toNat) = range' 1 segments.length
  near : ∀ segment ∈ segments, ∀ other ∈ segments,
    segment.scts - other.scts ≤ assemblyWindowSeconds

variable {chrono : Chrono} {hashes : Hashes} {line sim : Str} {dedupe : Bool} {key : GroupKey}
  {segments : List Segment} {db next : Database}

variable {segment : Segment}

theorem Segment.Reads.readPart (h : segment.Reads chrono) (hashes : Hashes)
    (id : ℕ) : NativeSms.readPart chrono hashes
      { id, kind := .deliver, hex := segment.pdu.map Char.toUpper } = some (segment.part id) := by
  obtain ⟨bytes, stamp, hbytes, hparse, hstamp, hscts⟩ := h.parses
  rw [NativeSms.readPart, readRow, hbytes]
  dsimp only
  rw [readDeliver, hparse]
  dsimp only
  rw [hstamp]
  dsimp only
  rw [hscts]
  rfl

theorem Concatenated.groupKey (h : Concatenated chrono key segments)
    (hsegment : segment ∈ segments) (id : ℕ) : (segment.part id).groupKey = some key :=
  h.shared segment hsegment

/-- The sequence numbers grow from one segment to the next. -/
theorem Concatenated.sorted (h : Concatenated chrono key segments) :
    segments.Pairwise fun segment other => segment.sequence.toNat < other.sequence.toNat := by
  have hsorted : (segments.map (·.sequence.toNat)).Pairwise (· < ·) := by
    rw [h.numbered]
    exact pairwise_lt_range'
  exact pairwise_map.1 hsorted

variable {other : Segment}

theorem Concatenated.eq_of_sequence (h : Concatenated chrono key segments)
    (hsegment : segment ∈ segments) (hother : other ∈ segments)
    (hsame : segment.sequence = other.sequence) : segment = other := by
  have hnodup : (segments.map (·.sequence.toNat)).Nodup := by
    rw [h.numbered]
    exact nodup_range'
  exact inj_on_of_nodup_map hnodup hsegment hother (congrArg UInt8.toNat hsame)

/-! ## Assembling distinct segments -/

variable {parts : List Part}

theorem sequences_of_nodup (seen : List (UInt8 × MtSmsDeliver))
    (hnodup : (parts.map (·.sequence)).Nodup)
    (hnew : ∀ part ∈ parts, seen.lookup part.sequence = none) :
    ∃ result, sequences seen parts = some result ∧ result.length = seen.length + parts.length := by
  induction parts generalizing seen with
  | nil => exact ⟨seen, rfl, rfl⟩
  | cons part parts ih =>
    rw [map_cons, nodup_cons] at hnodup
    rw [sequences, hnew part mem_cons_self]
    have hnew' : ∀ later ∈ parts,
        ((part.sequence, part.message) :: seen).lookup later.sequence = none := by
      intro later hlater
      have hne : (later.sequence == part.sequence) = false := by
        rw [beq_eq_false_iff_ne]
        exact fun hsame => hnodup.1 (hsame ▸ mem_map_of_mem hlater)
      rw [lookup_cons, hne]
      exact hnew later (mem_cons_of_mem _ hlater)
    obtain ⟨result, hresult, hlength⟩ := ih _ hnodup.2 hnew'
    refine ⟨result, hresult, ?_⟩
    rw [hlength, length_cons, length_cons]
    omega

/-- As many parts as the total, one for each number: they are complete. -/
theorem assemble_of_nodup (total : ℕ) (hne : parts ≠ [])
    (htotal : ∀ part ∈ parts, part.message.segmentTotal.toNat = total)
    (hlength : parts.length = total) (hnodup : (parts.map (·.sequence)).Nodup)
    (hall : ∀ n, 1 ≤ n → n ≤ total → ∃ part ∈ parts, part.sequence.toNat = n) :
    assemble parts = some parts := by
  obtain ⟨result, hresult, hcount⟩ :=
    sequences_of_nodup [] hnodup fun part _ => lookup_nil
  obtain ⟨hkeys, -, -⟩ := sequences_some hresult
  obtain ⟨first, rest, rfl⟩ := exists_cons_of_ne_nil hne
  have hfirst := htotal first mem_cons_self
  have hbound : first.message.segmentTotal.toNat < 256 := UInt8.toNat_lt _
  rw [assemble, if_neg (by omega), hresult]
  dsimp only
  rw [if_pos]
  refine ⟨?_, all_eq_true.2 fun n hn => ?_⟩
  · rw [hcount, hfirst, length_nil]
    omega
  · rw [hfirst] at hn
    obtain ⟨hpos, hle⟩ := mem_range'_1.1 hn
    obtain ⟨part, hpart, hsequence⟩ := hall n hpos (by omega)
    refine (hkeys _).2 (Or.inr ⟨part, hpart, ?_⟩)
    rw [← hsequence, UInt8.ofNat_toNat]

theorem joinedText_of_nodup {last : Option UInt8}
    (hnodup : (parts.map (·.sequence)).Nodup) (hlast : ∀ part ∈ parts, last ≠ some part.sequence) :
    joinedText last parts = (parts.map (·.message.text)).flatten := by
  induction parts generalizing last with
  | nil => rfl
  | cons part parts ih =>
    rw [map_cons, nodup_cons] at hnodup
    rw [joinedText, if_neg (hlast part mem_cons_self), map_cons, flatten_cons, ih hnodup.2]
    intro later hlater hsame
    exact hnodup.1 (Option.some.inj hsame ▸ mem_map_of_mem hlater)

/-! ## The phases -/

/-- The unique key of the row of a segment. -/
def Segment.rowKey (line sim : Str) (segment : Segment) : Str × Str × PduKind × Str :=
  (line, sim, .deliver, segment.fingerprint)

/-- A row of the segment is there, whatever its state. -/
def Present (line sim : Str) (db : Database) (segment : Segment) : Prop :=
  ∃ row ∈ db.inbox, row.key = segment.rowKey line sim

/-- The waiting parts of the group are the segments present. -/
structure Collecting (chrono : Chrono) (hashes : Hashes) (line sim : Str) (key : GroupKey)
    (segments : List Segment) (db : Database) : Prop where
  inbox : InboxInvariant db
  parts : ∀ part ∈ pendingParts chrono hashes line sim db, part.groupKey = some key →
    ∃ segment ∈ segments, ∃ row ∈ db.inbox, row.key = segment.rowKey line sim ∧
      part = segment.part row.id
  waiting : ∀ segment ∈ segments, ∀ row ∈ db.inbox, row.key = segment.rowKey line sim →
    segment.part row.id ∈ pendingParts chrono hashes line sim db

/-- All segments are present, and no part of the group waits. -/
structure Finished (chrono : Chrono) (hashes : Hashes) (line sim : Str) (key : GroupKey)
    (segments : List Segment) (db : Database) : Prop where
  inbox : InboxInvariant db
  none : ∀ part ∈ pendingParts chrono hashes line sim db, part.groupKey ≠ some key
  present : ∀ segment ∈ segments, Present line sim db segment

theorem Present.rewrites (hrewrites : Rewrites db next) :
    Present line sim next segment ↔ Present line sim db segment := by
  obtain ⟨⟨f, hf, hinbox⟩, -⟩ := hrewrites
  constructor
  · rintro ⟨row, hrow, hkey⟩
    rw [hinbox] at hrow
    obtain ⟨before, hbefore, rfl⟩ := mem_map.1 hrow
    exact ⟨before, hbefore, (hf.same before).2.symm.trans hkey⟩
  · rintro ⟨row, hrow, hkey⟩
    refine ⟨f row, ?_, (hf.same row).2.trans hkey⟩
    rw [hinbox]
    exact mem_map_of_mem hrow

variable {missing : Segment}

/-- While a segment is missing nothing of the group is complete. -/
theorem Collecting.incomplete (h : Collecting chrono hashes line sim key segments db)
    (hconcat : Concatenated chrono key segments) (hmissing : missing ∈ segments)
    (habsent : ¬ Present line sim db missing) :
    (completeGroups (pendingParts chrono hashes line sim db)).filter (concerns key) = [] := by
  rw [filter_eq_nil_iff]
  intro group hgroup hconcerns
  obtain ⟨part, hpart, hkey⟩ := concerns_eq_true.1 hconcerns
  have hfilter : group ∈ (completeGroups (pendingParts chrono hashes line sim db)).filter
      (concerns key) := mem_filter.2 ⟨hgroup, hconcerns⟩
  rw [completeGroups_filter] at hfilter
  obtain ⟨window, hwindow, hassemble⟩ := mem_filterMap.1 hfilter
  have hkeys : ∀ part ∈ (pendingParts chrono hashes line sim db).filter
      (·.groupKey = some key), part.groupKey = some key :=
    fun part hpart => of_decide_eq_true (mem_filter.1 hpart).2
  obtain ⟨hone, hsubset⟩ := oneMessage_of_assemble hkeys hwindow hassemble
  -- the number of the missing segment is among those of the group
  have hnumber : missing.sequence.toNat ∈ range' 1 segments.length := by
    rw [← hconcat.numbered]
    exact mem_map_of_mem hmissing
  obtain ⟨hpos, hle⟩ := mem_range'_1.1 hnumber
  have htotal := groupKey_total hkey
  obtain ⟨other, hother, hsequence⟩ := hone.complete part hpart missing.sequence.toNat hpos (by
    rw [htotal, hconcat.total]
    omega)
  obtain ⟨hwaits, -⟩ := mem_filter.1 (hsubset hother)
  obtain ⟨segment, hsegment, row, hrow, hrowKey, rfl⟩ :=
    h.parts other hwaits (hkeys other (hsubset hother))
  have hsame : segment = missing :=
    hconcat.eq_of_sequence hsegment hmissing (UInt8.toNat_inj.1 hsequence)
  exact habsent ⟨row, hrow, hsame ▸ hrowKey⟩

/-- A replay that completes nothing of the group leaves the phase. -/
theorem Collecting.replay (h : Collecting chrono hashes line sim key segments db)
    (hconcat : Concatenated chrono key segments)
    (hnone : (completeGroups (pendingParts chrono hashes line sim db)).filter (concerns key) = [])
    (hfinishes : Finishes chrono hashes line sim db next
      ((completeGroups (pendingParts chrono hashes line sim db)).flatten.map (·.id))) :
    Collecting chrono hashes line sim key segments next := by
  have hstays : ∀ part ∈ pendingParts chrono hashes line sim db, part.groupKey = some key →
      part ∈ pendingParts chrono hashes line sim next := by
    intro part hpart hkey
    rw [hfinishes.pendingParts]
    refine mem_filter.2 ⟨hpart, decide_eq_true fun hgone => ?_⟩
    obtain ⟨other, hother, hid⟩ := mem_map.1 hgone
    obtain ⟨group, hgroup, hmem⟩ := mem_flatten.1 hother
    obtain rfl := pendingParts_eq_of_id h.inbox ((completeGroups_unmixed hgroup).1 hmem) hpart hid
    exact filter_eq_nil_iff.1 hnone group hgroup (concerns_eq_true.2 ⟨other, hmem, hkey⟩)
  obtain ⟨⟨f, hf, hinbox⟩, -⟩ := hfinishes.rewrites
  refine ⟨h.inbox.rewrites hfinishes.rewrites, fun part hpart hkey => ?_,
    fun segment hsegment row hrow hrowKey => ?_⟩
  · rw [hfinishes.pendingParts] at hpart
    obtain ⟨segment, hsegment, row, hrow, hrowKey, rfl⟩ :=
      h.parts part (mem_filter.1 hpart).1 hkey
    refine ⟨segment, hsegment, f row, ?_, (hf.same row).2.trans hrowKey, ?_⟩
    · rw [hinbox]
      exact mem_map_of_mem hrow
    · rw [(hf.same row).1]
  · rw [hinbox] at hrow
    obtain ⟨before, hbefore, rfl⟩ := mem_map.1 hrow
    rw [(hf.same before).1]
    exact hstays _ (h.waiting segment hsegment before hbefore
      ((hf.same before).2.symm.trans hrowKey)) (hconcat.groupKey hsegment _)

instance : Std.Total Part.precedes where
  total part other := by
    simp only [Part.precedes, UInt8.lt_iff_toNat_lt, ← UInt8.toNat_inj]
    omega

instance : IsTrans Part Part.precedes where
  trans part other third := by
    simp only [Part.precedes, UInt8.lt_iff_toNat_lt, ← UInt8.toNat_inj]
    omega

/-- The segments as parts, with the ids of their rows. -/
def partsOf (segments : List Segment) (ids : Segment → ℕ) : List Part :=
  segments.map fun segment => segment.part (ids segment)

variable {ids : Segment → ℕ}

theorem mem_partsOf {part : Part} :
    part ∈ partsOf segments ids ↔ ∃ segment ∈ segments, segment.part (ids segment) = part :=
  mem_map

section

variable (h : Concatenated chrono key segments)
include h

theorem Concatenated.sequences_nodup (ids : Segment → ℕ) :
    ((partsOf segments ids).map (·.sequence)).Nodup := by
  rw [partsOf, map_map, Nodup, pairwise_map]
  exact h.sorted.imp fun hlt hsame => absurd (congrArg UInt8.toNat hsame) (Nat.ne_of_lt hlt)

/-- All the segments, in any order, lie in one window, which is complete. -/
theorem Concatenated.assembles (hperm : parts.Perm (partsOf segments ids)) :
    (windows [] parts).filterMap assemble = [parts] := by
  have hnonempty : parts ≠ [] := by
    rintro rfl
    have hlength := hperm.length_eq
    rw [partsOf, length_map, length_nil] at hlength
    have hseveral := h.several
    omega
  have hwindows : windows [] parts = [parts] := by
    obtain ⟨first, rest, rfl⟩ := exists_cons_of_ne_nil hnonempty
    obtain ⟨segment, hsegment, rfl⟩ := mem_partsOf.1 (hperm.subset mem_cons_self)
    rw [windows, windows_eq_singleton]
    · rfl
    · intro part hpart
      obtain ⟨other, hother, rfl⟩ := mem_partsOf.1 (hperm.subset (mem_cons_of_mem _ hpart))
      exact h.near other hother segment hsegment
  have hassemble : assemble parts = some parts := by
    refine assemble_of_nodup segments.length hnonempty ?_ ?_ ?_ ?_
    · intro part hpart
      obtain ⟨segment, hsegment, rfl⟩ := mem_partsOf.1 (hperm.subset hpart)
      rw [groupKey_total (h.groupKey hsegment _), h.total]
    · rw [hperm.length_eq, partsOf, length_map]
    · exact (hperm.map _).nodup_iff.2 (h.sequences_nodup ids)
    · intro n hpos hle
      have hnumber : n ∈ segments.map (·.sequence.toNat) := by
        rw [h.numbered]
        exact mem_range'_1.2 ⟨hpos, by omega⟩
      obtain ⟨segment, hsegment, rfl⟩ := mem_map.1 hnumber
      exact ⟨segment.part (ids segment), hperm.mem_iff.2 (mem_partsOf.2 ⟨segment, hsegment, rfl⟩),
        rfl⟩
  rw [hwindows, filterMap_cons, hassemble, filterMap_nil]

/-- Sorting the segments puts them in the order of their numbers. -/
theorem Concatenated.sorts (hperm : parts.Perm (partsOf segments ids)) :
    parts.insertionSort Part.precedes = partsOf segments ids := by
  have hsorted : (partsOf segments ids).Pairwise Part.precedes := by
    rw [partsOf, pairwise_map]
    exact h.sorted.imp fun hlt => Or.inl hlt
  refine Perm.eq_of_pairwise ?_ (pairwise_insertionSort Part.precedes parts) hsorted
    ((perm_insertionSort _ _).trans hperm)
  intro part other hpart hother hle hge
  obtain ⟨segment, hsegment, rfl⟩ :=
    mem_partsOf.1 (hperm.subset ((mem_insertionSort _).1 hpart))
  obtain ⟨segment', hsegment', rfl⟩ := mem_partsOf.1 hother
  have hsame : segment.sequence = segment'.sequence := by
    simp only [Part.precedes, UInt8.lt_iff_toNat_lt, ← UInt8.toNat_inj] at hle hge
    refine UInt8.toNat_inj.1 ?_
    change (segment.part (ids segment)).sequence.toNat =
      (segment'.part (ids segment')).sequence.toNat
    omega
  rw [h.eq_of_sequence hsegment hsegment' hsame]

end

section

variable (h : Collecting chrono hashes line sim key segments db)
include h

variable (hconcat : Concatenated chrono key segments)
include hconcat

/-- Once all segments are present, the waiting parts of the group are the segments. -/
theorem Collecting.perm (hall : ∀ segment ∈ segments, Present line sim db segment) : ∃ ids,
      ((pendingParts chrono hashes line sim db).filter (·.groupKey = some key)).Perm
        (partsOf segments ids) := by
  have hwaits : ∀ segment ∈ segments, ∃ id,
      segment.part id ∈ pendingParts chrono hashes line sim db := by
    intro segment hsegment
    obtain ⟨row, hrow, hkey⟩ := hall segment hsegment
    exact ⟨row.id, h.waiting segment hsegment row hrow hkey⟩
  choose! ids hids using hwaits
  refine ⟨ids, (perm_ext_iff_of_nodup ((pendingParts_ids h.inbox).of_map.filter _)
    (hconcat.sequences_nodup ids).of_map).2 fun part => ?_⟩
  rw [mem_filter, decide_eq_true_iff, mem_partsOf]
  constructor
  · rintro ⟨hpart, hkey⟩
    obtain ⟨segment, hsegment, row, hrow, hrowKey, rfl⟩ := h.parts part hpart hkey
    obtain ⟨segment', hsegment', row', hrow', hrowKey', hsame⟩ :=
      h.parts _ (hids segment hsegment) (hconcat.groupKey hsegment _)
    -- the numbers agree, so the segments do, and their rows
    obtain rfl : segment = segment' :=
      hconcat.eq_of_sequence hsegment hsegment' (congrArg Part.sequence hsame)
    obtain rfl : row = row' := inj_on_of_nodup_map h.inbox.keys hrow hrow'
      (hrowKey.trans hrowKey'.symm)
    exact ⟨segment, hsegment, hsame⟩
  · rintro ⟨segment, hsegment, rfl⟩
    exact ⟨hids segment hsegment, hconcat.groupKey hsegment _⟩

/-- Once all segments are present they are complete, in whatever order they came. -/
theorem Collecting.complete (hall : ∀ segment ∈ segments, Present line sim db segment) :
    ∃ (ids : Segment → ℕ) (group : List Part),
      (completeGroups (pendingParts chrono hashes line sim db)).filter (concerns key) = [group] ∧
      group.insertionSort Part.precedes = partsOf segments ids ∧
      ∀ part ∈ pendingParts chrono hashes line sim db, part.groupKey = some key → part ∈ group := by
  obtain ⟨ids, hperm⟩ := h.perm hconcat hall
  have hsorted := (perm_insertionSort Part.earlier _).trans hperm
  refine ⟨ids, _, ?_, hconcat.sorts hsorted, fun part hpart hkey => ?_⟩
  · rw [completeGroups_filter, hconcat.assembles hsorted]
  · exact (mem_insertionSort _).2 (mem_filter.2 ⟨hpart, decide_eq_true hkey⟩)

/-- The replay that completes the message ends its parts. -/
theorem Collecting.finishes (hall : ∀ segment ∈ segments, Present line sim db segment)
    (hfinishes : Finishes chrono hashes line sim db next
      ((completeGroups (pendingParts chrono hashes line sim db)).flatten.map (·.id))) :
    Finished chrono hashes line sim key segments next := by
  obtain ⟨ids, group, hgroup, -, hmem⟩ := h.complete hconcat hall
  refine ⟨h.inbox.rewrites hfinishes.rewrites, fun part hpart hkey => ?_,
    fun segment hsegment => (Present.rewrites hfinishes.rewrites).2 (hall segment hsegment)⟩
  rw [hfinishes.pendingParts] at hpart
  obtain ⟨hwaits, hstays⟩ := mem_filter.1 hpart
  have hcomplete : group ∈ completeGroups (pendingParts chrono hashes line sim db) :=
    mem_of_mem_filter (hgroup ▸ mem_singleton_self group)
  refine of_decide_eq_true hstays (mem_map.2 ⟨part, ?_, rfl⟩)
  exact mem_flatten.2 ⟨group, hcomplete, hmem part hwaits hkey⟩

end

/-- After it no replay promotes anything of the group. -/
theorem Finished.replay (h : Finished chrono hashes line sim key segments db)
    (hfinishes : Finishes chrono hashes line sim db next
      ((completeGroups (pendingParts chrono hashes line sim db)).flatten.map (·.id))) :
    (completeGroups (pendingParts chrono hashes line sim db)).filter (concerns key) = [] ∧
      Finished chrono hashes line sim key segments next := by
  refine ⟨filter_eq_nil_iff.2 fun group hgroup hconcerns => ?_, h.inbox.rewrites hfinishes.rewrites,
    fun part hpart => ?_, fun segment hsegment =>
      (Present.rewrites hfinishes.rewrites).2 (h.present segment hsegment)⟩
  · obtain ⟨part, hpart, hkey⟩ := concerns_eq_true.1 hconcerns
    exact h.none part ((completeGroups_unmixed hgroup).1 hpart) hkey
  · rw [hfinishes.pendingParts] at hpart
    exact h.none part (mem_of_mem_filter hpart)

/-! ## Staging a segment -/

/-- The row a staging inserts. -/
def Segment.row (line sim : Str) (segment : Segment) (id : ℕ) (now : ℤ) : InboxRow where
  id
  lineId := line
  simKey := sim
  kind := .deliver
  fingerprint := segment.fingerprint
  pdu := segment.pdu.map Char.toUpper
  createdAt := now

/-- The database behind an insertion. -/
def inserted (line sim : Str) (db : Database) (segment : Segment) (now : ℤ) : Database :=
  (db.insertPdu line sim .deliver segment.fingerprint segment.pdu now).pruneDone line

/-- Staging a segment is refused, finds its row, or inserts it. -/
theorem stage_cases (line sim : Str) (db : Database) (segment : Segment) (now : ℤ) :
    let result := (stageNativePdu line sim "deliver".toList segment.fingerprint segment.pdu
      now).call db
    (∃ e, result = (.error e, db)) ∨
      scopeValid line sim = .ok () ∧ ((Present line sim db segment ∧ ∃ id, result = (.ok id, db)) ∨
        (¬ Present line sim db segment ∧ db.full line = false ∧
          result = (.ok db.nextInboxId, inserted line sim db segment now))) := by
  intro result
  have hresult : result =
    (stageNativePdu line sim "deliver".toList segment.fingerprint segment.pdu now).call db := rfl
  have hkind : ∀ kind, stageKind "deliver".toList segment.fingerprint segment.pdu = .ok kind →
      kind = .deliver := by
    intro kind h
    rw [stageKind, PduKind.parse, if_pos rfl] at h
    dsimp only at h
    split at h
    · exact (Except.ok.inj h).symm
    · cases h
  rw [stageNativePdu, call_lift_bind] at hresult
  split at hresult
  next hscope =>
    rw [call_lift_bind] at hresult
    split at hresult
    next kind hparsed =>
      obtain rfl := hkind kind hparsed
      rw [call_get_bind] at hresult
      split at hresult
      next row hrow =>
        refine Or.inr ⟨hscope, Or.inl ⟨⟨row, mem_of_find?_eq_some hrow, ?_⟩, row.id, hresult⟩⟩
        have hfound := find?_some hrow
        simp only [InboxRow.inScope, and_eq_true, beq_iff_eq] at hfound
        simp [InboxRow.key, Segment.rowKey, hfound]
      next hnone =>
        split at hresult
        · exact Or.inl ⟨_, hresult⟩
        next hroom =>
          refine Or.inr ⟨hscope, Or.inr ⟨?_, by simpa using hroom, hresult⟩⟩
          rintro ⟨row, hrow, hkey⟩
          exact find?_eq_none.1 hnone row hrow (findPdu_key hkey)
    next => exact Or.inl ⟨_, hresult⟩
  next => exact Or.inl ⟨_, hresult⟩

variable {now : ℤ} {row : InboxRow}

theorem mem_inserted (h : row ∈ (inserted line sim db segment now).inbox) :
    row ∈ db.inbox ∨ row = segment.row line sim db.nextInboxId now := by
  rcases mem_append.1 (mem_of_mem_filter h) with h | h
  · exact Or.inl h
  · exact Or.inr (mem_singleton.1 h)

/-- Open rows stay, and the new one is there. -/
theorem inserted_mem
    (h : row ∈ db.inbox ∨ row = segment.row line sim db.nextInboxId now)
    (hopen : row.isOpen = true) :
    row ∈ (inserted line sim db segment now).inbox := by
  refine mem_filter.2 ⟨?_, ?_⟩
  · rcases h with h | rfl
    · exact mem_append_left _ h
    · exact mem_append_right _ (mem_singleton_self _)
  · rw [InboxRow.isOpen, bne_iff_ne] at hopen
    simp [InboxRow.doneOn, hopen]

/-- The segment waits behind the parts of before. -/
theorem pendingParts_inserted (hreads : segment.Reads chrono) (now : ℤ) :
    pendingParts chrono hashes line sim (inserted line sim db segment now) =
      pendingParts chrono hashes line sim db ++ [segment.part db.nextInboxId] := by
  have hnew : rowPart chrono hashes line sim (segment.row line sim db.nextInboxId now) =
      some (segment.part db.nextInboxId) := by
    rw [rowPart, if_pos (by simp [InboxRow.waits, InboxRow.inScope, Segment.row])]
    exact hreads.readPart hashes db.nextInboxId
  have hkept : ∀ row : InboxRow, (!(row.doneOn line &&
      !((db.insertPdu line sim .deliver segment.fingerprint segment.pdu now).keptDone line).contains
        row.id)) = false → rowPart chrono hashes line sim row = none := by
    intro row hpruned
    rw [not_eq_false', and_eq_true, InboxRow.doneOn, and_eq_true, beq_iff_eq, beq_iff_eq] at hpruned
    exact rowPart_of_not_waits (by simp [InboxRow.waits, hpruned.1.2])
  rw [pendingParts, inserted, Database.pruneDone, filterMap_filter]
  have hsame : ∀ row ∈ (db.insertPdu line sim .deliver segment.fingerprint segment.pdu now).inbox,
      (if (!(row.doneOn line &&
        !((db.insertPdu line sim .deliver segment.fingerprint segment.pdu now).keptDone
          line).contains
          row.id)) = true then rowPart chrono hashes line sim row else none) =
      rowPart chrono hashes line sim row := by
    intro row _
    split
    next => rfl
    next hpruned => exact (hkept row (by simpa using hpruned)).symm
  rw [filterMap_congr hsame, Database.insertPdu, filterMap_append, filterMap_cons]
  rw [Segment.row] at hnew
  rw [hnew]
  rfl

/-- Staging a segment of the message keeps the phase, and what is present stays so. -/
theorem Collecting.insert (h : Collecting chrono hashes line sim key segments db)
    (hconcat : Concatenated chrono key segments) (hsegment : segment ∈ segments)
    (habsent : ¬ Present line sim db segment) (hscope : scopeValid line sim = .ok ())
    (hroom : db.full line = false) :
    Collecting chrono hashes line sim key segments (inserted line sim db segment now) := by
  have hnone : db.findPdu line sim .deliver segment.fingerprint = none := by
    refine find?_eq_none.2 fun row hrow hfound => habsent ⟨row, hrow, ?_⟩
    simp only [InboxRow.inScope, and_eq_true, beq_iff_eq] at hfound
    simp [InboxRow.key, Segment.rowKey, hfound]
  have hparts : ∀ part,
      part ∈ pendingParts chrono hashes line sim (inserted line sim db segment now) ↔
      part ∈ pendingParts chrono hashes line sim db ∨ part = segment.part db.nextInboxId := by
    intro part
    rw [pendingParts_inserted (hconcat.reads segment hsegment), mem_append, mem_singleton]
  refine ⟨(h.inbox.insertPdu hscope hnone hroom).pruneDone line, fun part hpart hkey => ?_,
    fun other hother row hrow hrowKey => (hparts _).2 ?_⟩
  · rcases (hparts part).1 hpart with hpart | rfl
    · obtain ⟨other, hother, row, hrow, hrowKey, hsame⟩ := h.parts part hpart hkey
      -- its row waits, so it is not pruned
      obtain ⟨row', hrow', hwaits, hid, -⟩ := mem_pendingParts hpart
      obtain rfl := h.inbox.numbered.eq_of_id hrow' hrow (by rw [hid, hsame]; rfl)
      exact ⟨other, hother, row',
        inserted_mem (Or.inl hrow) (isOpen_of_pending (waits_state hwaits)), hrowKey, hsame⟩
    · exact ⟨segment, hsegment, _, inserted_mem (Or.inr rfl) rfl, rfl, rfl⟩
  · rcases mem_inserted hrow with hrow | rfl
    · exact Or.inl (h.waiting other hother row hrow hrowKey)
    · have hsame : segment = other := inj_on_of_nodup_map hconcat.distinct hsegment hother
        (congrArg (fun key : Str × Str × PduKind × Str => key.2.2.2) hrowKey)
      rw [← hsame]
      exact Or.inr rfl

theorem Collecting.present_insert (h : Collecting chrono hashes line sim key segments db)
    (hother : other ∈ segments) :
    Present line sim (inserted line sim db segment now) other ↔
      Present line sim db other ∨ other.fingerprint = segment.fingerprint := by
  constructor
  · rintro ⟨row, hrow, hkey⟩
    rcases mem_inserted hrow with hrow | rfl
    · exact Or.inl ⟨row, hrow, hkey⟩
    · exact Or.inr (congrArg (fun key : Str × Str × PduKind × Str => key.2.2.2) hkey).symm
  · rintro (⟨row, hrow, hkey⟩ | hsame)
    · obtain ⟨row', hrow', hwaits, hid, -⟩ :=
        mem_pendingParts (h.waiting other hother row hrow hkey)
      obtain rfl := h.inbox.numbered.eq_of_id hrow' hrow hid
      exact ⟨row', inserted_mem (Or.inl hrow) (isOpen_of_pending (waits_state hwaits)), hkey⟩
    · refine ⟨segment.row line sim db.nextInboxId now, inserted_mem (Or.inr rfl) rfl, ?_⟩
      rw [Segment.rowKey, hsame]
      rfl

/-! ## Runs -/

/-- A staging of a segment, or a replay. -/
inductive Event where
  | stage (segment : Segment) (now : ℤ)
  | consume (clock : ℕ → ℤ)

/-- An event on the inbox, and the promotions it answers with. -/
def handle (chrono : Chrono) (hashes : Hashes) (line sim : Str) (dedupe : Bool) (db : Database) :
    Event → Except DbError (List Promotion) × Database
  | .stage segment now =>
    let result :=
      (stageNativePdu line sim "deliver".toList segment.fingerprint segment.pdu now).call db
    (result.1.map fun _ => [], result.2)
  | .consume clock => (promotePending chrono hashes clock line sim dedupe).call db

section Runs

variable (chrono : Chrono) (hashes : Hashes) (line sim : Str) (dedupe : Bool) (start : Database)

/-- The database after the events. -/
def after (events : List Event) : Database :=
  Machine.run (handle chrono hashes line sim dedupe) start events

/-- A staging of the segment was accepted. -/
def Staged (events : List Event) (segment : Segment) : Prop :=
  ∃ before now, before ++ [Event.stage segment now] <+: events ∧
    (handle chrono hashes line sim dedupe (after chrono hashes line sim dedupe start before)
      (.stage segment now)).1.isOk

/-- No replay came after all segments were staged. -/
def Early (segments : List Segment) (events : List Event) : Prop :=
  ∀ before clock, before ++ [Event.consume clock] <+: events →
    ∃ segment ∈ segments, ¬ Staged chrono hashes line sim dedupe start before segment

/-- The promotions of the group in the course of the events. -/
def promotionsOf (key : GroupKey) (events : List Event) : List Promotion :=
  (Machine.trace (handle chrono hashes line sim dedupe) start events).flatMap fun entry =>
    (entry.2.toOption.getD []).filter fun promotion => concerns key promotion.parts

end Runs

variable {start : Database} {events : List Event}

theorem promotionsOf_append (events later : List Event) :
    promotionsOf chrono hashes line sim dedupe start key (events ++ later) =
      promotionsOf chrono hashes line sim dedupe start key events ++
      promotionsOf chrono hashes line sim dedupe (after chrono hashes line sim dedupe start events)
        key later := by
  rw [promotionsOf, trace_append, flatMap_append]
  rfl

/-- While nothing was promoted, the last event decides. -/
theorem promotionsOf_concat (h : promotionsOf chrono hashes line sim dedupe start key events = [])
    (event : Event) :
    promotionsOf chrono hashes line sim dedupe start key (events ++ [event]) =
      ((handle chrono hashes line sim dedupe (after chrono hashes line sim dedupe start events)
        event).1.toOption.getD []).filter fun promotion => concerns key promotion.parts := by
  rw [promotionsOf_append, h, nil_append, promotionsOf, trace_cons, trace_nil, flatMap_singleton]

/-- The promotions of the group in a replay are its complete groups. -/
theorem promotions_filter (key : GroupKey) {promotions : List Promotion} {groups : List (List Part)}
    (h : promotions.map (·.parts) = groups.map (·.insertionSort Part.precedes)) :
    (promotions.filter fun promotion => concerns key promotion.parts).map (·.parts) =
      (groups.filter (concerns key)).map (·.insertionSort Part.precedes) := by
  have hsorted : ∀ group, concerns key (group.insertionSort Part.precedes) =
      concerns key group := by
    intro group
    exact (perm_insertionSort Part.precedes group).any_eq
  have hfilter := congrArg (List.filter (concerns key)) h
  rw [filter_map, filter_map] at hfilter
  rw [show (fun promotion : Promotion => concerns key promotion.parts) =
    concerns key ∘ (·.parts) from rfl, hfilter]
  congr 1
  exact filter_congr fun group _ => hsorted group

theorem staged_concat {event : Event} :
    Staged chrono hashes line sim dedupe start (events ++ [event]) segment ↔
      Staged chrono hashes line sim dedupe start events segment ∨
      ∃ now, event = .stage segment now ∧
        (handle chrono hashes line sim dedupe (after chrono hashes line sim dedupe start events)
          event).1.isOk := by
  constructor
  · rintro ⟨before, now, hbegins, hok⟩
    rcases prefix_concat_iff.1 hbegins with hlast | hbegins
    · obtain ⟨rfl, hevent⟩ := append_inj' hlast rfl
      obtain rfl := (cons.inj hevent).1
      exact Or.inr ⟨now, rfl, hok⟩
    · exact Or.inl ⟨before, now, hbegins, hok⟩
  · rintro (⟨before, now, hbegins, hok⟩ | ⟨now, rfl, hok⟩)
    · exact ⟨before, now, hbegins.trans (prefix_append _ _), hok⟩
    · exact ⟨events, now, prefix_refl _, hok⟩

/-- A replay in a scope that is not valid is refused. -/
theorem promotePending_refused {e : DbError} (clock : ℕ → ℤ) (h : scopeValid line sim = .error e) :
    (promotePending chrono hashes clock line sim dedupe).call db = (.error e, db) := by
  rw [promotePending, call_get_bind, call_lift_bind, pendingNativePdus, h]
  rfl

/-- What holds before the message is complete. -/
structure Waits (chrono : Chrono) (hashes : Hashes) (line sim : Str) (dedupe : Bool)
    (key : GroupKey)
    (segments : List Segment) (start : Database) (events : List Event) : Prop where
  collecting : Collecting chrono hashes line sim key segments
    (after chrono hashes line sim dedupe start events)
  present : ∀ segment ∈ segments,
    Present line sim (after chrono hashes line sim dedupe start events) segment ↔
      Staged chrono hashes line sim dedupe start events segment
  silent : promotionsOf chrono hashes line sim dedupe start key events = []

section

variable (h : Waits chrono hashes line sim dedupe key segments start events)
include h

theorem Waits.stage
    (hconcat : Concatenated chrono key segments) (hsegment : segment ∈ segments) (now : ℤ) :
    Waits chrono hashes line sim dedupe key segments start
      (events ++ [Event.stage segment now]) := by
  obtain ⟨hcollecting, hpresent, hsilent⟩ := h
  have hafter : after chrono hashes line sim dedupe start (events ++ [Event.stage segment now]) =
      (handle chrono hashes line sim dedupe (after chrono hashes line sim dedupe start events)
        (.stage segment now)).2 := run_concat _ _ _ _
  have hsilent' : promotionsOf chrono hashes line sim dedupe start key
      (events ++ [Event.stage segment now]) = [] := by
    rw [promotionsOf_concat hsilent, handle]
    cases ((stageNativePdu line sim "deliver".toList segment.fingerprint segment.pdu now).call
      (after chrono hashes line sim dedupe start events)).1 with
    | error e => rfl
    | ok id => rfl
  generalize hdb :
    after chrono hashes line sim dedupe start events = db at hafter hcollecting hpresent
  have hstaged : ∀ other, Staged chrono hashes line sim dedupe start
      (events ++ [Event.stage segment now]) other ↔
      Staged chrono hashes line sim dedupe start events other ∨ other = segment ∧
        (handle chrono hashes line sim dedupe db (.stage segment now)).1.isOk := by
    intro other
    rw [staged_concat, hdb]
    refine or_congr_right ⟨?_, ?_⟩
    · rintro ⟨now', hevent, hok⟩
      obtain ⟨rfl, rfl⟩ := Event.stage.inj hevent
      exact ⟨rfl, hok⟩
    · rintro ⟨rfl, hok⟩
      exact ⟨now, rfl, hok⟩
  obtain ⟨e, hcall⟩ | ⟨hscope, ⟨hthere, id, hcall⟩ | ⟨habsent, hroom, hcall⟩⟩ :=
    stage_cases line sim db segment now
  · -- refused
    have hhandle : handle chrono hashes line sim dedupe db (.stage segment now) =
        (.error e, db) := by
      rw [handle, hcall]
      rfl
    rw [hhandle] at hafter hstaged
    refine ⟨by rw [hafter]; exact hcollecting, fun other hother => ?_, hsilent'⟩
    rw [hafter, hpresent other hother, hstaged]
    refine ⟨Or.inl, fun h => h.resolve_right ?_⟩
    rintro ⟨-, hok⟩
    cases hok
  · -- found
    have hhandle : handle chrono hashes line sim dedupe db (.stage segment now) = (.ok [], db) := by
      rw [handle, hcall]
      rfl
    rw [hhandle] at hafter hstaged
    refine ⟨by rw [hafter]; exact hcollecting, fun other hother => ?_, hsilent'⟩
    rw [hafter, hstaged, ← hpresent other hother]
    refine ⟨Or.inl, ?_⟩
    rintro (hold | ⟨rfl, -⟩)
    · exact hold
    · exact hthere
  · -- inserted
    have hhandle : handle chrono hashes line sim dedupe db (.stage segment now) =
        (.ok [], inserted line sim db segment now) := by
      rw [handle, hcall]
      rfl
    rw [hhandle] at hafter hstaged
    refine ⟨by rw [hafter]; exact hcollecting.insert hconcat hsegment habsent hscope hroom,
      fun other hother => ?_, hsilent'⟩
    rw [hafter, hstaged, hcollecting.present_insert hother, hpresent other hother]
    refine or_congr_right ⟨fun hsame => ⟨?_, rfl⟩, fun hsame => by rw [hsame.1]⟩
    exact inj_on_of_nodup_map hconcat.distinct hother hsegment hsame

theorem Waits.consume (hlawful : chrono.Lawful) (hconcat : Concatenated chrono key segments)
    (hmissing : missing ∈ segments)
    (hunstaged : ¬ Staged chrono hashes line sim dedupe start events missing) (clock : ℕ → ℤ) :
    Waits chrono hashes line sim dedupe key segments start (events ++ [Event.consume clock]) := by
  obtain ⟨hcollecting, hpresent, hsilent⟩ := h
  have hafter : after chrono hashes line sim dedupe start (events ++ [Event.consume clock]) =
      ((promotePending chrono hashes clock line sim dedupe).call
        (after chrono hashes line sim dedupe start events)).2 := run_concat _ _ _ _
  have hpromotions := promotionsOf_concat hsilent (.consume clock)
  rw [handle] at hpromotions
  have hstaged : ∀ segment, Staged chrono hashes line sim dedupe start
      (events ++ [Event.consume clock]) segment ↔
      Staged chrono hashes line sim dedupe start events segment := by
    intro segment
    rw [staged_concat]
    refine ⟨fun h => h.resolve_right ?_, Or.inl⟩
    rintro ⟨now, hevent, -⟩
    cases hevent
  have habsent := fun hthere => hunstaged ((hpresent missing hmissing).1 hthere)
  generalize after chrono hashes line sim dedupe start events = db at *
  cases hscope : scopeValid line sim with
  | error e =>
    rw [promotePending_refused clock hscope] at hafter hpromotions
    refine ⟨by rw [hafter]; exact hcollecting, fun segment hsegment => ?_, hpromotions⟩
    rw [hafter, hstaged, hpresent segment hsegment]
  | ok scope =>
    obtain ⟨promotions, next, hcall, hparts, -, hfinishes, -⟩ :=
      promotePending_ok hashes clock dedupe hcollecting.inbox hscope hlawful
    have hnone := hcollecting.incomplete hconcat hmissing habsent
    have hfilter := promotions_filter key hparts
    rw [hnone, map_nil, map_eq_nil_iff] at hfilter
    rw [hcall] at hafter hpromotions
    refine ⟨by rw [hafter]; exact hcollecting.replay hconcat hnone hfinishes,
      fun segment hsegment => ?_, hpromotions.trans hfilter⟩
    rw [hafter, hstaged, Present.rewrites hfinishes.rewrites, hpresent segment hsegment]

end

/-- **Before the message is complete** nothing of it is promoted. -/
theorem waits_run (hlawful : chrono.Lawful) (hconcat : Concatenated chrono key segments)
    (hstart : Waits chrono hashes line sim dedupe key segments start [])
    (hevents : ∀ segment now, .stage segment now ∈ events → segment ∈ segments)
    (hearly : Early chrono hashes line sim dedupe start segments events) :
    Waits chrono hashes line sim dedupe key segments start events := by
  induction events using reverseRecOn with
  | nil => exact hstart
  | append_singleton events event ih =>
    have hbefore := ih (fun segment now hmem => hevents segment now (mem_append_left _ hmem))
      fun before clock hbegins => hearly before clock (hbegins.trans (prefix_append _ _))
    cases event with
    | stage segment now =>
      exact hbefore.stage hconcat (hevents segment now
        (mem_append_right _ (mem_singleton_self _))) now
    | consume clock =>
      obtain ⟨missing, hmissing, hunstaged⟩ := hearly events clock (prefix_refl _)
      exact hbefore.consume hlawful hconcat hmissing hunstaged clock

/-- **After it was promoted** nothing of it is promoted again. -/
theorem finished_run (dedupe : Bool) (hlawful : chrono.Lawful)
    (hstart : Finished chrono hashes line sim key segments start)
    (hevents : ∀ segment now, .stage segment now ∈ events → segment ∈ segments) :
    Finished chrono hashes line sim key segments
    (after chrono hashes line sim dedupe start events) ∧
      promotionsOf chrono hashes line sim dedupe start key events = [] := by
  induction events using reverseRecOn with
  | nil => exact ⟨hstart, rfl⟩
  | append_singleton events event ih =>
    obtain ⟨hfinished, hsilent⟩ :=
      ih fun segment now hmem => hevents segment now (mem_append_left _ hmem)
    have hafter : after chrono hashes line sim dedupe start (events ++ [event]) =
        (handle chrono hashes line sim dedupe (after chrono hashes line sim dedupe start events)
          event).2 := run_concat _ _ _ _
    have hpromotions := promotionsOf_concat hsilent event
    generalize after chrono hashes line sim dedupe start events = db at hafter hpromotions hfinished
    rw [hafter, hpromotions]
    cases event with
    | stage segment now =>
      have hsegment := hevents segment now (mem_append_right _ (mem_singleton_self _))
      obtain ⟨e, hcall⟩ | ⟨-, ⟨-, id, hcall⟩ | ⟨habsent, -, -⟩⟩ :=
        stage_cases line sim db segment now
      · rw [handle, hcall]
        exact ⟨hfinished, rfl⟩
      · rw [handle, hcall]
        exact ⟨hfinished, rfl⟩
      · exact absurd (hfinished.present segment hsegment) habsent
    | consume clock =>
      rw [handle]
      cases hscope : scopeValid line sim with
      | error e =>
        rw [promotePending_refused clock hscope]
        exact ⟨hfinished, rfl⟩
      | ok scope =>
        obtain ⟨promotions, next, hcall, hparts, -, hfinishes, -⟩ :=
          promotePending_ok hashes clock dedupe hfinished.inbox hscope hlawful
        obtain ⟨hnone, hnext⟩ := hfinished.replay hfinishes
        have hfilter := promotions_filter key hparts
        rw [hnone, map_nil, map_eq_nil_iff] at hfilter
        rw [hcall]
        exact ⟨hnext, hfilter⟩

/-- The message of the segments, but for the ids of its rows. -/
def assembled (hashes : Hashes) (line sim : Str) (dedupe : Bool) (key : GroupKey)
    (segments : List Segment) (timestamp : Str) (ids : List ℕ) : InboxMessage :=
  let text := (segments.map (·.decoded.message.text)).flatten
  { ids
    lineId := line
    simKey := sim
    number := key.originator
    text
    timestamp
    marker := messageMarker hashes sim (partsOf segments fun _ => 0)
    fingerprint :=
      if dedupe then some (messageFingerprint hashes timestamp key.originator text) else none }

/-- A marker is made of the PDUs. -/
theorem messageMarker_congr {parts' : List Part} (h : parts.map (·.hex) = parts'.map (·.hex)) :
    messageMarker hashes sim parts = messageMarker hashes sim parts' :=
  congrArg (fun hexes => "nativefp:".toList ++
    digest hashes (asBytes (sim ++ ":".toList ++ joinWith ":".toList hexes))) h

theorem Concatenated.assembled (h : Concatenated chrono key segments)
    {first : Segment} (hfirst : first ∈ segments) :
    inboxMessage hashes line sim dedupe (first.part (ids first)) (partsOf segments ids) =
      NativeSms.assembled hashes line sim dedupe key segments
        first.decoded.message.serviceCenterTimestamp ((partsOf segments ids).map (·.id)) := by
  have htext : joinedText none (partsOf segments ids) =
      (segments.map (·.decoded.message.text)).flatten := by
    rw [joinedText_of_nodup (h.sequences_nodup ids) (fun part _ hnone => by cases hnone), partsOf,
      map_map]
    rfl
  have hmarker : messageMarker hashes sim (partsOf segments ids) =
      messageMarker hashes sim (partsOf segments fun _ => 0) := by
    refine messageMarker_congr ?_
    rw [partsOf, partsOf, map_map, map_map]
    rfl
  have hnumber : (first.part (ids first)).message.originator = key.originator := by
    have hkey := h.groupKey hfirst (ids first)
    rw [Part.groupKey] at hkey
    split at hkey
    · cases hkey
    · obtain ⟨reference, -, rfl⟩ := Option.map_eq_some_iff.1 hkey
      rfl
  rw [inboxMessage, htext, hmarker, hnumber]
  rfl

/-- **A concatenated message is promoted exactly once**, by the first replay after all its segments
were staged, whatever the order and the repetitions. The promotion does not depend on them: it has
the originator, the texts joined in the order of the sequence numbers, the timestamp of the first
segment and a marker and fingerprint made of these. It is stored as a message, once, unless its
dedup key was known or an earlier promotion of the same replay committed it. -/
theorem promoted_once (hlawful : chrono.Lawful) (calls : List Call)
    (hconcat : Concatenated chrono key segments) (hfresh : ∀ segment ∈ segments,
      ¬ Present line sim (Machine.run (step chrono) {} calls) segment)
    (halone : ∀ part ∈ pendingParts chrono hashes line sim
      (Machine.run (step chrono) {} calls), part.groupKey ≠ some key)
    {events later : List Event} (clock : ℕ → ℤ)
    (hevents : ∀ segment now, Event.stage segment now ∈ events ++ later → segment ∈ segments)
    (hearly : Early chrono hashes line sim dedupe (Machine.run (step chrono) {} calls)
      segments events) (hall : ∀ segment ∈ segments, Staged chrono hashes line sim dedupe
      (Machine.run (step chrono) {} calls) events segment) :
    let start : Database := Machine.run (step chrono) {} calls
    let db : Database := after chrono hashes line sim dedupe start events
    promotionsOf chrono hashes line sim dedupe start key events = [] ∧
    ∃ earlier promotion others, ∃ first ∈ segments.head?,
      ((promotePending chrono hashes clock line sim dedupe).call db).1 =
        .ok (earlier ++ promotion :: others) ∧
      ((consumePending chrono hashes clock line sim dedupe).call db).1 =
        .ok ((earlier ++ promotion :: others).filterMap (·.stored)) ∧
      promotionsOf chrono hashes line sim dedupe start key
        (events ++ Event.consume clock :: later) = [promotion] ∧
      promotion.message = assembled hashes line sim dedupe key segments
        first.decoded.message.serviceCenterTimestamp (promotion.parts.map (·.id)) ∧
      Promoted chrono hashes line sim dedupe promotion ∧
      (db.hasReceived line sim promotion.message.dedupKey = false →
        (∀ other ∈ earlier, other.message.dedupKey ≠ promotion.message.dedupKey) →
        promotion.stored.isSome) := by
  intro start db
  have hstart : Waits chrono hashes line sim dedupe key segments start [] := by
    refine ⟨⟨inboxInvariant_run chrono calls, fun part hpart hkey =>
      absurd hkey (halone part hpart),
      fun segment hsegment row hrow hkey => absurd ⟨row, hrow, hkey⟩ (hfresh segment hsegment)⟩,
      fun segment hsegment => ⟨fun h => absurd h (hfresh segment hsegment), ?_⟩, rfl⟩
    rintro ⟨before, now, hbegins, -⟩
    exact absurd (prefix_nil.1 hbegins) (by simp)
  obtain ⟨hcollecting, hpresent, hsilent⟩ := waits_run hlawful hconcat hstart
    (fun segment now hmem => hevents segment now (mem_append_left _ hmem)) hearly
  have hthere : ∀ segment ∈ segments, Present line sim db segment :=
    fun segment hsegment => (hpresent segment hsegment).2 (hall segment hsegment)
  obtain ⟨first, rest, rfl⟩ : ∃ first rest, segments = first :: rest := by
    refine exists_cons_of_ne_nil fun hnil => ?_
    have hseveral := hconcat.several
    rw [hnil] at hseveral
    exact absurd hseveral (by simp)
  have hscope : scopeValid line sim = .ok () := by
    obtain ⟨row, hrow, hkey⟩ := hthere first mem_cons_self
    have hrowScope := hcollecting.inbox.scopes row hrow
    have hline : row.lineId = line := congrArg (·.1) hkey
    have hsim : row.simKey = sim := congrArg (·.2.1) hkey
    rwa [hline, hsim] at hrowScope
  obtain ⟨promotions, next, hcall, hparts, hpromoted, hfinishes, hstores⟩ :=
    promotePending_ok hashes clock dedupe hcollecting.inbox hscope hlawful
  obtain ⟨ids, group, hgroup, hsorted, -⟩ := hcollecting.complete hconcat hthere
  have hfilter := promotions_filter key hparts
  rw [hgroup, map_singleton, hsorted] at hfilter
  obtain ⟨promotion, honly, hpromotionParts⟩ := map_eq_singleton_iff.1 hfilter
  have hmem : promotion ∈ promotions := mem_of_mem_filter (honly ▸ mem_singleton_self _)
  obtain ⟨earlier, others, rfl⟩ := append_of_mem hmem
  have hfinished := hcollecting.finishes hconcat hthere hfinishes
  obtain ⟨-, hquiet⟩ := finished_run dedupe hlawful hfinished
    fun segment now hmem => hevents segment now (mem_append_right _ hmem)
  refine ⟨hsilent, earlier, promotion, others, first, rfl, ?_, ?_, ?_, ?_,
    hpromoted promotion hmem, ?_⟩
  · rw [hcall]
  · rw [consumePending, call_bind, hcall]
    rfl
  · rw [promotionsOf_append, hsilent, nil_append, promotionsOf, Machine.trace_cons,
      flatMap_cons, handle, hcall]
    exact congrArg₂ (· ++ ·) honly hquiet
  · have hmessage := (hpromoted promotion hmem).message (first.part (ids first))
      (by rw [hpromotionParts]; rfl)
    rw [hmessage, hpromotionParts, hconcat.assembled mem_cons_self]
  · exact hstores earlier promotion others rfl

/-! ## Two messages -/

/-- A calendar that knows the start of 2026. -/
def newYear : Chrono where
  Instant := Unit
  parseFromRfc3339 text := if text = "2026-01-01T00:00:00Z".toList then some () else none
  timestamp _ := 1767225600
  toRfc3339 _ := "2026-01-01T00:00:00Z".toList
  withYmdAndHms offset year month day hour minute second :=
    if offset = 0 ∧ year = 2026 ∧ month = 1 ∧ day = 1 ∧ hour = 0 ∧ minute = 0 ∧ second = 0 then
      some ()
    else none

theorem newYear_reads : newYear.parseFromRfc3339 "2026-01-01T00:00:00Z".toList = some () := rfl

theorem newYear_lawful : newYear.Lawful where
  nonempty timestamp := cons_ne_nil '2' "026-01-01T00:00:00Z".toList
  plain timestamp c hc := by
    have hplain : "2026-01-01T00:00:00Z".toList.all (fun c => !isWhitespace c) = true := by
      decide +kernel
    simpa using all_eq_true.1 hplain c hc
  reads text := by
    rintro ⟨-, -, -, -, -, -, -, -, -, -, -, rfl⟩
    exact ⟨(), newYear_reads⟩

/-- The PDU of a segment of one character, from 1234 at the start of 2026. -/
def twoPartPdu (reference sequence unit : UInt8) : Bytes :=
  [0, 0x40, 4, 0x81, 0x21, 0x43, 0, 8, 0x62, 0x10, 0x10, 0, 0, 0, 0, 8, 5, 0, 3, reference, 2,
    sequence, 0, unit]

def twoPartKey (reference : UInt8) : GroupKey where
  originator := "1234".toList
  assemblyKey := hexLower [0x81, 0, 8, 0, 3, reference, 2, 0]
  reference := UInt16.ofNat reference.toNat
  total := 2

def twoPartSegment (reference sequence unit : UInt8) : Segment where
  fingerprint := replicate 62 'c' ++ hexLower [16 * reference + sequence]
  pdu := hexLower (twoPartPdu reference sequence unit)
  decoded := {
    message := {
      rpMessageReference := 0
      originator := "1234".toList
      text := [Char.ofNat unit.toNat]
      userDataBytes := 8
      serviceCenterTimestamp := "2026-01-01T00:00:00Z".toList
      segmentReference := some (UInt16.ofNat reference.toNat)
      segmentSequence := sequence
      segmentTotal := 2 }
    assemblyKey := hexLower [0x81, 0, 8, 0, 3, reference, 2, 0] }
  scts := 1767225600

/-- The message AB in two segments. -/
def twoParts (reference : UInt8) : List Segment :=
  [twoPartSegment reference 1 0x41, twoPartSegment reference 2 0x42]

/-- The digests of the two messages below. -/
def twoPartHashes : Hashes where
  sha256 data :=
    if data = asBytes (replicate 64 'a' ++ ":".toList ++ joinWith ":".toList
      ((twoParts 7).map fun segment => segment.pdu.map Char.toUpper)) then
      [148, 67, 141, 159, 32, 76, 248, 52, 18, 75, 48, 221, 164, 95, 80, 199, 57, 151, 87, 186, 231,
        244, 238, 163, 140, 89, 24, 53, 159, 199, 223, 133]
    else
      [3, 186, 101, 27, 122, 13, 99, 74, 52, 255, 215, 84, 179, 103, 241, 148, 170, 195, 113, 250,
        105, 166, 101, 205, 156, 157, 1, 227, 228, 59, 118, 2]
  md5 _ := [184, 111, 198, 176, 81, 246, 61, 115, 222, 38, 45, 76, 52, 227, 160, 169]
  sha256_length data := by
    split
    · rfl
    · rfl

theorem twoParts_concatenated (reference : UInt8) (h : reference = 7 ∨ reference = 8) :
    Concatenated newYear (twoPartKey reference) (twoParts reference) := by
  have hreads : ∀ segment ∈ twoParts reference, ∃ bytes,
      (hashValid segment.fingerprint && pduValid segment.pdu) = true ∧
      unhex (segment.pdu.map Char.toUpper) = some bytes ∧
      parseModemDeliver newYear bytes = .ok segment.decoded ∧
      segment.decoded.message.serviceCenterTimestamp = "2026-01-01T00:00:00Z".toList ∧
      segment.scts = 1767225600 := by
    intro segment hsegment
    rcases mem_cons.1 hsegment with rfl | hsegment
    · refine ⟨twoPartPdu reference 1 0x41, ?_⟩
      rcases h with rfl | rfl
      · decide +kernel
      · decide +kernel
    · rw [mem_singleton.1 hsegment]
      refine ⟨twoPartPdu reference 2 0x42, ?_⟩
      rcases h with rfl | rfl
      · decide +kernel
      · decide +kernel
  refine ⟨fun segment hsegment => ?_, ?_, ?_, ?_, ?_, ?_, ?_⟩
  · obtain ⟨bytes, hvalid, hbytes, hparse, htext, hscts⟩ := hreads segment hsegment
    rw [and_eq_true] at hvalid
    refine ⟨hvalid, bytes, (), hbytes, hparse, ?_, hscts.symm⟩
    rw [htext]
    exact newYear_reads
  · rcases h with rfl | rfl
    · decide +kernel
    · decide +kernel
  · exact le_rfl
  · rfl
  · rcases h with rfl | rfl
    · decide +kernel
    · decide +kernel
  · rcases h with rfl | rfl
    · decide +kernel
    · decide +kernel
  · rcases h with rfl | rfl
    · decide +kernel
    · decide +kernel

/-- Both segments, the second one first. -/
def twoPartEvents (reference : UInt8) : List Event :=
  [.stage (twoPartSegment reference 2 0x42) 0, .stage (twoPartSegment reference 1 0x41) 0]

/-- The inbox after the first message was stored. -/
def firstStored : Database :=
  after newYear twoPartHashes "line".toList (replicate 64 'a') true {}
    (twoPartEvents 7 ++ [Event.consume fun _ => 0])

/-- The network sends the message again, under another reference: its segments are complete, and
promoted, but their dedup key is that of the message stored before. -/
theorem complete_not_stored : Concatenated newYear (twoPartKey 8) (twoParts 8) ∧
    (∀ segment ∈ twoParts 8, ¬ Present "line".toList (replicate 64 'a') firstStored segment) ∧
    pendingParts newYear twoPartHashes "line".toList (replicate 64 'a') firstStored = [] ∧
    (∀ segment ∈ twoParts 8, Staged newYear twoPartHashes "line".toList (replicate 64 'a') true
      firstStored (twoPartEvents 8) segment) ∧
    (promotionsOf newYear twoPartHashes "line".toList (replicate 64 'a') true firstStored
      (twoPartKey 8) (twoPartEvents 8 ++ [Event.consume fun _ => 0])).map (·.stored) = [none] := by
  refine ⟨twoParts_concatenated 8 (Or.inr rfl), ?_, by decide +kernel, ?_, by decide +kernel⟩
  · have habsent : ∀ segment ∈ twoParts 8, ∀ row ∈ firstStored.inbox,
        row.key ≠ segment.rowKey "line".toList (replicate 64 'a') := by decide +kernel
    rintro segment hsegment ⟨row, hrow, hkey⟩
    exact habsent segment hsegment row hrow hkey
  · intro segment hsegment
    rcases mem_cons.1 hsegment with rfl | hsegment
    · exact ⟨[.stage (twoPartSegment 8 2 0x42) 0], 0, prefix_refl _, by decide +kernel⟩
    · rw [mem_singleton.1 hsegment]
      exact ⟨[], 0, prefix_append _ _, by decide +kernel⟩

theorem promoted_once_sample : ∃ promotion : Promotion,
    promotionsOf newYear twoPartHashes "line".toList (replicate 64 'a') true
      (Machine.run (step newYear) {} []) (twoPartKey 7)
      (twoPartEvents 7 ++ Event.consume (fun _ => 0) :: []) = [promotion] ∧
    promotion.message.text = "AB".toList := by
  have hfresh : ∀ segment ∈ twoParts 7, ¬ Present "line".toList (replicate 64 'a')
      (Machine.run (step newYear) {} []) segment := by
    rintro segment - ⟨row, hrow, -⟩
    cases hrow
  have halone : ∀ part ∈ pendingParts newYear twoPartHashes "line".toList (replicate 64 'a')
      (Machine.run (step newYear) {} []), part.groupKey ≠ some (twoPartKey 7) := by
    intro part hpart
    cases hpart
  have hevents : ∀ segment now, Event.stage segment now ∈ twoPartEvents 7 ++ [] →
      segment ∈ twoParts 7 := by
    intro segment now hmem
    rw [append_nil] at hmem
    rcases mem_cons.1 hmem with hstage | hmem
    · rw [(Event.stage.inj hstage).1]
      exact mem_cons_of_mem _ (mem_singleton_self _)
    · rw [(Event.stage.inj (mem_singleton.1 hmem)).1]
      exact mem_cons_self
  have hearly : Early newYear twoPartHashes "line".toList (replicate 64 'a') true
      (Machine.run (step newYear) {} []) (twoParts 7) (twoPartEvents 7) := by
    intro before clock hbegins
    have hmem : Event.consume clock ∈ twoPartEvents 7 :=
      hbegins.subset (mem_append_right _ (mem_singleton_self _))
    simp [twoPartEvents] at hmem
  have hall : ∀ segment ∈ twoParts 7, Staged newYear twoPartHashes "line".toList
      (replicate 64 'a') true (Machine.run (step newYear) {} []) (twoPartEvents 7)
      segment := by
    intro segment hsegment
    rcases mem_cons.1 hsegment with rfl | hsegment
    · exact ⟨[.stage (twoPartSegment 7 2 0x42) 0], 0, prefix_refl _, by decide +kernel⟩
    · rw [mem_singleton.1 hsegment]
      exact ⟨[], 0, prefix_append _ _, by decide +kernel⟩
  obtain ⟨-, earlier, promotion, others, first, hfirst, -, -, honly, hmessage, -⟩ :=
    promoted_once newYear_lawful [] (twoParts_concatenated 7 (Or.inl rfl)) hfresh halone
      (fun _ => 0)
      hevents hearly hall
  refine ⟨promotion, honly, ?_⟩
  rw [hmessage]
  rfl

end NativeSms

end SimMaster
