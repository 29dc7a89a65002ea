import SimMaster.SdpSections

/-!
# Whose description it is

The audio sections of a body are read into the same accumulators. For the port, the transport, the
packet time, the address, the direction and the mapping of a payload type the last section that
gives one counts, for the parameters of a payload type the first, and the payload types of all
sections are put in a row (`Says`, `codecs_readAll`). So the description is that of one audio
section just when the others do not interfere with it (`describes_iff`).
-/

namespace SimMaster.Voice

open Rust List

/-! ## What a line gives -/

/-- The mapping an attribute gives for a payload type. -/
def mappingAttribute (pt : UInt8) (value : Str) : Option RtpMap :=
  ((stripPrefix "rtpmap:".toList value).bind parseRtpmap).filter (·.payloadType == pt)

/-- The parameters an attribute gives for a payload type. -/
def formatAttribute (pt : UInt8) (value : Str) : Option Str :=
  (((stripPrefix "fmtp:".toList value).bind parseFmtp).filter (·.1 == pt)).map Prod.snd

/-- The packet time an attribute gives; a text that is no number takes it back. -/
def ptimeAttribute (value : Str) : Option (Option UInt16) :=
  (stripPrefix "ptime:".toList value).map fun time => parseU16 (trim time)

/-- The direction an attribute gives. -/
def directionAttribute (value : Str) : Option MediaDirection :=
  if (stripPrefix "rtpmap:".toList value).isSome ∨ (stripPrefix "fmtp:".toList value).isSome ∨
      (stripPrefix "ptime:".toList value).isSome then none
  else MediaDirection.fromToken (trim value)

/-- The address of an o= line with all its parts. -/
def originAddress (value : Str) : Option Connection :=
  match splitWhitespace value with
  | _ :: _ :: _ :: _ :: addrType :: addr :: _ => connectionOf [addrType, addr]
  | _ => none

/-- Static payload types need no mapping. -/
def staticMapping (pt : UInt8) : Option RtpMap :=
  if pt = 0 then some ⟨0, .pcmu, 8000, none⟩
  else if pt = 8 then some ⟨8, .pcma, 8000, none⟩
  else none

theorem not_stripPrefix {a b : Char} (hne : a ≠ b) {front other value rest : Str}
    (h : stripPrefix (a :: front) value = some rest) : stripPrefix (b :: other) value = none := by
  cases hother : stripPrefix (b :: other) value with
  | none => rfl
  | some more =>
    exact absurd (Option.some.inj ((head_stripPrefix h).symm.trans (head_stripPrefix hother))) hne

/-! ## What a section gives -/

namespace Media

/-- The payload types of the section: the readable ones behind the profile. -/
def payloads (block : Media) : List UInt8 :=
  ((splitWhitespace block.value).drop 3).filterMap parseU8

/-- Its port; zero when the text is no port. -/
def port (block : Media) : Option UInt16 :=
  (splitWhitespace block.value)[1]?.map fun port => (parseU16 port).getD 0

/-- Its transport: SRTP when the profile has `SAVP` in it. -/
def transport (block : Media) : Option MediaTransportKind :=
  (splitWhitespace block.value)[2]?.map fun proto : Str =>
    if (findSub "SAVP".toList (proto.map Char.toUpper)).isSome then MediaTransportKind.rtpSavp
    else .rtpAvp

/-- The last packet time it gives; `some none` when the line has no readable one. -/
def ptime (block : Media) : Option (Option UInt16) := lastOf 'a' ptimeAttribute block.fields

def connection (block : Media) : Option Connection := connectionIn block.fields

/-- The last mapping it gives for the payload type. -/
def mapping (pt : UInt8) (block : Media) : Option RtpMap :=
  lastOf 'a' (mappingAttribute pt) block.fields

/-- The parameters that stand first. -/
def format (pt : UInt8) (block : Media) : Option Str :=
  (block.fields.filterMap (given 'a' (formatAttribute pt))).head?

end Media

/-- The direction of some lines. -/
def directionOf (fields : List (Str × Str)) : Option MediaDirection :=
  lastOf 'a' directionAttribute fields

/-- The last direction attribute it gives. -/
def Media.direction (block : Media) : Option MediaDirection := directionOf block.fields

/-- What the last of the sections that gives something gives. -/
def lastIn {α : Type} (gives : Media → Option α) (media : List Media) : Option α :=
  (media.filterMap gives).getLast?

/-- What the first of the sections that gives something gives. -/
def firstIn {α : Type} (gives : Media → Option α) (media : List Media) : Option α :=
  (media.filterMap gives).head?

/-! ## The accumulators -/

namespace Audio

/-- The mapping of a payload type, when it is listed. -/
def mapped (audio : Audio) (pt : UInt8) : Option RtpMap :=
  (audio.rtpmaps.find? (·.payloadType == pt)).or (staticMapping pt)

/-- The parameters of a payload type. -/
def formatted (audio : Audio) (pt : UInt8) : Option Str :=
  (audio.fmtps.find? (·.1 == pt)).map Prod.snd

/-- Every static payload type that is listed has a mapping. -/
def Covered (audio : Audio) : Prop :=
  ∀ pt ∈ audio.payloadOrder, audio.rtpmaps.find? (·.payloadType == pt) = none →
    staticMapping pt = none

end Audio

/-- What a line of an audio section does to the accumulators. -/
structure Says (audio next : Audio) (field : Str × Str) : Prop where
  mediaPort : next.mediaPort = audio.mediaPort := by rfl
  transport : next.transport = audio.transport := by rfl
  payloadOrder : next.payloadOrder = audio.payloadOrder := by rfl
  connection : next.connection = (given 'c' connectionValue field).or audio.connection := by rfl
  direction : some next.direction = (given 'a' directionAttribute field).or (some audio.direction)
  ptime : some next.ptime = (given 'a' ptimeAttribute field).or (some audio.ptime)
  mapped : ∀ pt, next.mapped pt = (given 'a' (mappingAttribute pt) field).or (audio.mapped pt)
  formatted : ∀ pt,
    next.formatted pt = (audio.formatted pt).or (given 'a' (formatAttribute pt) field)
  covered : audio.Covered → next.Covered := by exact fun h => h

/-- A line that gives nothing. -/
theorem Says.refl {audio : Audio} {field : Str × Str} (hc : given 'c' connectionValue field = none)
    (hd : given 'a' directionAttribute field = none) (hp : given 'a' ptimeAttribute field = none)
    (hm : ∀ pt, given 'a' (mappingAttribute pt) field = none)
    (hf : ∀ pt, given 'a' (formatAttribute pt) field = none) : Says audio audio field where
  connection := by rw [hc, Option.none_or]
  direction := by rw [hd, Option.none_or]
  ptime := by rw [hp, Option.none_or]
  mapped pt := by rw [hm, Option.none_or]
  formatted pt := by rw [hf, Option.or_none]

/-- A mapping takes the place of those of its payload type. -/
theorem find?_remap (maps : List RtpMap) (entry : RtpMap) (pt : UInt8) :
    ((maps.filter fun existing => existing.payloadType != entry.payloadType) ++ [entry]).find?
        (·.payloadType == pt) =
      ((some entry).filter (·.payloadType == pt)).or (maps.find? (·.payloadType == pt)) := by
  rw [find?_append, find?_filter, find?_singleton, Option.filter_some]
  by_cases h : entry.payloadType = pt
  · subst h
    rw [find?_eq_none.mpr fun a _ => by simp, beq_self_eq_true, if_pos rfl]
    rfl
  · rw [if_neg (by simpa using h), Option.or_none, Option.none_or]
    congr 1
    funext a
    by_cases ha : a.payloadType = pt
    · simp [ha, Ne.symm h]
    · simp [ha]

theorem attributeLine_gives (audio : Audio) (value : Str) :
    Says audio (audio.attributeLine value) (['a'], value) := by
  have hconnection : given 'c' connectionValue (['a'], value) = none := rfl
  have hgiven : ∀ {α : Type} (gives : Str → Option α),
      given 'a' gives (['a'], value) = gives value :=
    fun _ => if_pos rfl
  rw [Audio.attributeLine]
  cases hrtpmap : stripPrefix "rtpmap:".toList value with
  | some rtpmap =>
    have hfmtp : stripPrefix "fmtp:".toList value = none := not_stripPrefix (by decide) hrtpmap
    have hptime : stripPrefix "ptime:".toList value = none := not_stripPrefix (by decide) hrtpmap
    have hdirection : directionAttribute value = none := by
      rw [directionAttribute, if_pos (Or.inl (Option.isSome_of_eq_some hrtpmap))]
    have htime : ptimeAttribute value = none := by rw [ptimeAttribute, hptime]; rfl
    have hformat : ∀ pt, formatAttribute pt value = none := fun pt => by
      rw [formatAttribute, hfmtp]; rfl
    have hmapping : ∀ pt, mappingAttribute pt value =
        (parseRtpmap rtpmap).filter (·.payloadType == pt) := fun pt => by
      rw [mappingAttribute, hrtpmap]; rfl
    dsimp only
    cases hparse : parseRtpmap rtpmap with
    | none =>
      refine Says.refl hconnection ((hgiven _).trans hdirection) ((hgiven _).trans htime)
        (fun pt => (hgiven _).trans ?_) fun pt => (hgiven _).trans (hformat pt)
      rw [hmapping, hparse]
      rfl
    | some entry =>
      have hmapped : ∀ pt, Audio.mapped { audio with
          rtpmaps := (audio.rtpmaps.filter fun existing =>
            existing.payloadType != entry.payloadType) ++ [entry] } pt =
          (mappingAttribute pt value).or (audio.mapped pt) := fun pt => by
        rw [hmapping, hparse, Audio.mapped, Audio.mapped, find?_remap, Option.or_assoc]
      exact {
        direction := by rw [hgiven, hdirection]; rfl
        ptime := by rw [hgiven, htime]; rfl
        mapped := fun pt => by rw [hgiven, hmapped]
        formatted := fun pt => by rw [hgiven, hformat, Option.or_none]; rfl
        covered := fun hcovered pt hpt hnone => by
          rw [find?_remap, Option.or_eq_none_iff] at hnone
          exact hcovered pt hpt hnone.2 }
  | none =>
    have hmapping : ∀ pt, mappingAttribute pt value = none := fun pt => by
      rw [mappingAttribute, hrtpmap]; rfl
    cases hfmtp : stripPrefix "fmtp:".toList value with
    | some fmtp =>
      have hptime : stripPrefix "ptime:".toList value = none := not_stripPrefix (by decide) hfmtp
      have hdirection : directionAttribute value = none := by
        rw [directionAttribute, if_pos (Or.inr (Or.inl (Option.isSome_of_eq_some hfmtp)))]
      have htime : ptimeAttribute value = none := by rw [ptimeAttribute, hptime]; rfl
      have hformat : ∀ pt, formatAttribute pt value =
          ((parseFmtp fmtp).filter (·.1 == pt)).map Prod.snd := fun pt => by
        rw [formatAttribute, hfmtp]; rfl
      dsimp only
      cases hparse : parseFmtp fmtp with
      | none =>
        refine Says.refl hconnection ((hgiven _).trans hdirection) ((hgiven _).trans htime)
          (fun pt => (hgiven _).trans (hmapping pt)) fun pt => (hgiven _).trans ?_
        rw [hformat, hparse]
        rfl
      | some entry =>
        exact {
          direction := by rw [hgiven, hdirection]; rfl
          ptime := by rw [hgiven, htime]; rfl
          mapped := fun pt => by rw [hgiven, hmapping]; rfl
          formatted := fun pt => by
            rw [hgiven, hformat, hparse, Audio.formatted, Audio.formatted, find?_append,
              find?_singleton, Option.filter_some, Option.map_or] }
    | none =>
      have hformat : ∀ pt, formatAttribute pt value = none := fun pt => by
        rw [formatAttribute, hfmtp]; rfl
      cases hptime : stripPrefix "ptime:".toList value with
      | some time =>
        have hdirection : directionAttribute value = none := by
          rw [directionAttribute, if_pos (Or.inr (Or.inr (Option.isSome_of_eq_some hptime)))]
        exact {
          direction := by rw [hgiven, hdirection]; rfl
          ptime := by rw [hgiven, ptimeAttribute, hptime]; rfl
          mapped := fun pt => by rw [hgiven, hmapping]; rfl
          formatted := fun pt => by rw [hgiven, hformat, Option.or_none]; rfl }
      | none =>
        have htime : ptimeAttribute value = none := by rw [ptimeAttribute, hptime]; rfl
        have hdirection : directionAttribute value = MediaDirection.fromToken (trim value) := by
          rw [directionAttribute, hrtpmap, hfmtp, hptime, if_neg (by decide)]
        dsimp only
        cases htoken : MediaDirection.fromToken (trim value) with
        | none =>
          exact Says.refl hconnection ((hgiven _).trans (hdirection.trans htoken))
            ((hgiven _).trans htime) (fun pt => (hgiven _).trans (hmapping pt))
            fun pt => (hgiven _).trans (hformat pt)
        | some found =>
          exact {
            direction := by rw [hgiven, hdirection, htoken]; rfl
            ptime := by rw [hgiven, htime]; rfl
            mapped := fun pt => by rw [hgiven, hmapping]; rfl
            formatted := fun pt => by rw [hgiven, hformat, Option.or_none]; rfl }

/-- A line of a section gives what it says, and a `c=` line the address. -/
theorem line_gives (audio : Audio) (field : Str × Str) :
    Says audio (Media.line audio field) field := by
  obtain ⟨kind, value⟩ := field
  rw [Media.line]
  by_cases hconnection : kind = ['c']
  · subst hconnection
    rw [if_pos rfl]
    have hgiven : given 'c' connectionValue (['c'], value) =
        connectionOf (splitWhitespace value).tail := if_pos rfl
    cases hparse : connectionOf (splitWhitespace value).tail with
    | none => exact Says.refl (hgiven.trans hparse) rfl rfl (fun _ => rfl) fun _ => rfl
    | some connection =>
      exact {
        connection := by rw [hgiven, hparse]; rfl
        direction := rfl
        ptime := rfl
        mapped := fun _ => rfl
        formatted := fun _ => Option.or_none.symm }
  · rw [if_neg hconnection]
    by_cases hattribute : kind = ['a']
    · subst hattribute
      rw [if_pos rfl]
      exact attributeLine_gives audio value
    · rw [if_neg hattribute]
      exact Says.refl (if_neg hconnection) (if_neg hattribute) (if_neg hattribute)
        (fun _ => if_neg hattribute) fun _ => if_neg hattribute

/-- What listed payload types do to the accumulators. -/
structure Lists (audio next : Audio) (payloads : List UInt8) : Prop where
  mediaPort : next.mediaPort = audio.mediaPort
  transport : next.transport = audio.transport
  payloadOrder : next.payloadOrder = audio.payloadOrder ++ payloads
  connection : next.connection = audio.connection
  direction : next.direction = audio.direction
  ptime : next.ptime = audio.ptime
  mapped : ∀ pt, next.mapped pt = audio.mapped pt
  formatted : ∀ pt, next.formatted pt = audio.formatted pt
  covered : audio.Covered → next.Covered

theorem staticMapping_payloadType {pt : UInt8} {entry : RtpMap}
    (h : staticMapping pt = some entry) : entry.payloadType = pt := by
  rw [staticMapping] at h
  split at h
  · next hpt => exact (congrArg RtpMap.payloadType (Option.some.inj h)).symm.trans hpt.symm
  · split at h
    · next hpt => exact (congrArg RtpMap.payloadType (Option.some.inj h)).symm.trans hpt.symm
    · cases h

theorem find?_static (pt other : UInt8) :
    (staticMapping pt).toList.find? (·.payloadType == other) =
      if pt = other then staticMapping pt else none := by
  cases hstatic : staticMapping pt with
  | none => exact (ite_self _).symm
  | some entry =>
    rw [Option.toList_some, find?_singleton, staticMapping_payloadType hstatic]
    simp

theorem payload_rtpmaps (audio : Audio) (pt : UInt8) :
    (audio.payload pt).rtpmaps = audio.rtpmaps ++ (staticMapping pt).toList := by
  rw [Audio.payload, staticMapping]
  split
  · rfl
  · split
    · rfl
    · exact (append_nil _).symm

theorem payload_lists (audio : Audio) (pt : UInt8) : Lists audio (audio.payload pt) [pt] where
  mediaPort := rfl
  transport := rfl
  payloadOrder := rfl
  connection := rfl
  direction := rfl
  ptime := rfl
  mapped other := by
    rw [Audio.mapped, Audio.mapped, payload_rtpmaps, find?_append, find?_static]
    split
    · next heq => rw [heq, Option.or_assoc, Option.or_self]
    · rw [Option.or_none]
  formatted _ := rfl
  covered h other hother hnone := by
    rw [payload_rtpmaps, find?_append, find?_static, Option.or_eq_none_iff] at hnone
    rcases mem_append.mp hother with hother | hother
    · exact h other hother hnone.1
    · obtain rfl := mem_singleton.mp hother
      exact (if_pos rfl).symm.trans hnone.2

theorem payloads_lists (payloads : List UInt8) (audio : Audio) :
    Lists audio (payloads.foldl Audio.payload audio) payloads := by
  induction payloads generalizing audio with
  | nil =>
    exact ⟨rfl, rfl, (append_nil _).symm, rfl, rfl, rfl, fun _ => rfl, fun _ => rfl, fun h => h⟩
  | cons pt rest ih =>
    have hfirst := payload_lists audio pt
    have hrest := ih (audio.payload pt)
    exact {
      mediaPort := hrest.mediaPort.trans hfirst.mediaPort
      transport := hrest.transport.trans hfirst.transport
      payloadOrder := by
        rw [foldl_cons, hrest.payloadOrder, hfirst.payloadOrder, append_assoc]
        rfl
      connection := hrest.connection.trans hfirst.connection
      direction := hrest.direction.trans hfirst.direction
      ptime := hrest.ptime.trans hfirst.ptime
      mapped := fun pt => (hrest.mapped pt).trans (hfirst.mapped pt)
      formatted := fun pt => (hrest.formatted pt).trans (hfirst.formatted pt)
      covered := fun h => hrest.covered (hfirst.covered h) }

/-- What a section does to the accumulators. -/
structure Reads (audio next : Audio) (block : Media) : Prop where
  mediaPort : some next.mediaPort = block.port.or (some audio.mediaPort)
  transport : some next.transport = block.transport.or (some audio.transport)
  payloadOrder : next.payloadOrder = audio.payloadOrder ++ block.payloads
  connection : next.connection = block.connection.or audio.connection
  direction : some next.direction = block.direction.or (some audio.direction)
  ptime : some next.ptime = block.ptime.or (some audio.ptime)
  mapped : ∀ pt, next.mapped pt = (block.mapping pt).or (audio.mapped pt)
  formatted : ∀ pt, next.formatted pt = (audio.formatted pt).or (block.format pt)
  covered : audio.Covered → next.Covered

/-- What lines leave as it is. -/
theorem lines_keep (fields : List (Str × Str)) (audio : Audio) :
    (fields.foldl Media.line audio).mediaPort = audio.mediaPort ∧
      (fields.foldl Media.line audio).transport = audio.transport ∧
      (fields.foldl Media.line audio).payloadOrder = audio.payloadOrder ∧
      (audio.Covered → (fields.foldl Media.line audio).Covered) := by
  induction fields generalizing audio with
  | nil => exact ⟨rfl, rfl, rfl, fun h => h⟩
  | cons field rest ih =>
    have hgives := line_gives audio field
    obtain ⟨hport, htransport, horder, hcovered⟩ := ih (Media.line audio field)
    exact ⟨hport.trans hgives.mediaPort, htransport.trans hgives.transport,
      horder.trans hgives.payloadOrder, fun h => hcovered (hgives.covered h)⟩

/-- What one section makes of what the sections before it left. -/
theorem read_reads (audio : Audio) (block : Media) : Reads audio (block.read audio) block := by
  have hlists := payloads_lists block.payloads { audio with
    mediaPort := block.port.getD audio.mediaPort
    transport := block.transport.getD audio.transport }
  have hlists : Lists _ (audio.media block.value) block.payloads := hlists
  have hkeep := lines_keep block.fields (audio.media block.value)
  exact {
    mediaPort := by
      rw [Media.read, hkeep.1, hlists.mediaPort]
      cases block.port <;> rfl
    transport := by
      rw [Media.read, hkeep.2.1, hlists.transport]
      cases block.transport <;> rfl
    payloadOrder := hkeep.2.2.1.trans hlists.payloadOrder
    connection := by
      rw [Media.read, foldl_last Audio.connection fun a f => (line_gives a f).connection,
        hlists.connection]
      rfl
    direction := by
      rw [Media.read, foldl_last (fun a : Audio => some a.direction)
        fun a f => (line_gives a f).direction, hlists.direction]
      rfl
    ptime := by
      rw [Media.read, foldl_last (fun a : Audio => some a.ptime)
        fun a f => (line_gives a f).ptime, hlists.ptime]
      rfl
    mapped := fun pt => by
      rw [Media.read, foldl_last (fun a : Audio => a.mapped pt)
        fun a f => (line_gives a f).mapped pt, hlists.mapped]
      rfl
    formatted := fun pt => by
      rw [Media.read, foldl_first (fun a : Audio => a.formatted pt)
        fun a f => (line_gives a f).formatted pt, hlists.formatted]
      rfl
    covered := fun h => hkeep.2.2.2 (hlists.covered h) }

/-! ## All sections -/

section LastIn

variable {α : Type} (gives : Media → Option α) (front : List Media) (block : Media)
  (back : List Media)

/-- The last one is looked for behind the section, in it, and then before. -/
theorem lastIn_append : lastIn gives (front ++ block :: back) =
    (lastIn gives back).or ((gives block).or (lastIn gives front)) := by
  rw [lastIn, filterMap_append, List.getLast?_append, getLast?_filterMap_cons]
  rfl

theorem firstIn_append : firstIn gives (front ++ block :: back) =
    (firstIn gives front).or ((gives block).or (firstIn gives back)) := by
  rw [firstIn, filterMap_append, List.head?_append, filterMap_cons]
  cases gives block <;> rfl

end LastIn

def listedCodec (pt : UInt8) (fmtp : Option Str) (entry : RtpMap) : SdpCodec :=
  { codec := entry.codec
    payloadType := pt
    clockRate := entry.clockRate
    channels := entry.channels
    fmtp }

/-- The mapping of a payload type is the last one. -/
def mappingIn (media : List Media) (pt : UInt8) : Option RtpMap :=
  (lastIn (Media.mapping pt) media).or (staticMapping pt)

/-- The codec of a payload type: the last mapping, and the first parameters. -/
def codecIn (media : List Media) (pt : UInt8) : Option SdpCodec :=
  (mappingIn media pt).map (listedCodec pt (firstIn (Media.format pt) media))

theorem readAll_listed (media : List Media) (audio : Audio) :
    (media.foldl Media.read audio).payloadOrder =
        audio.payloadOrder ++ media.flatMap Media.payloads ∧
      (audio.Covered → (media.foldl Media.read audio).Covered) := by
  induction media generalizing audio with
  | nil => exact ⟨(append_nil _).symm, fun h => h⟩
  | cons first rest ih =>
    have hreads := read_reads audio first
    obtain ⟨horder, hcovered⟩ := ih (first.read audio)
    rw [foldl_cons, horder, hreads.payloadOrder, append_assoc]
    exact ⟨rfl, fun h => hcovered (hreads.covered h)⟩

/-- **The codecs.** -/
theorem codecs_readAll (media : List Media) :
    (readAll media).codecs = (media.flatMap Media.payloads).filterMap (codecIn media) := by
  obtain ⟨horder, hcovered⟩ := readAll_listed media {}
  have hcovered := hcovered fun _ h => absurd h not_mem_nil
  rw [Audio.codecs, readAll, horder]
  refine filterMap_congr fun pt hpt => ?_
  have hmapped : (readAll media).mapped pt = mappingIn media pt :=
    foldl_last (fun a : Audio => a.mapped pt) (fun a b => (read_reads a b).mapped pt) media {}
  have hformatted : (readAll media).formatted pt = firstIn (Media.format pt) media :=
    foldl_first (fun a : Audio => a.formatted pt) (fun a b => (read_reads a b).formatted pt) media
      {}
  have hfind : (readAll media).rtpmaps.find? (·.payloadType == pt) = (readAll media).mapped pt := by
    rw [Audio.mapped]
    cases hfind : (readAll media).rtpmaps.find? (·.payloadType == pt) with
    | none => exact (hcovered pt (horder ▸ hpt) hfind).symm
    | some entry => rfl
  rw [codecIn, ← hmapped, ← hformatted, ← hfind]
  rfl

theorem originConnection_line (state : SdpState) (field : Str × Str) :
    (state.line field).originConnection =
      (given 'o' originAddress field).or state.originConnection := by
  obtain ⟨kind, value⟩ := field
  rw [SdpState.line, given]
  split
  · rw [SdpState.origin, originAddress]
    -- an o= line counts if it has six parts
    rcases splitWhitespace value with
      _ | ⟨username, _ | ⟨id, _ | ⟨version, _ | ⟨head, _ | ⟨addrType, _ | ⟨addr, rest⟩⟩⟩⟩⟩⟩ <;> rfl
  · split
    · rw [SdpState.connection]
      split
      · rfl
      · split
        · rfl
        · split <;> rfl
    · split
      · rw [SdpState.media]
        split <;> rfl
      · split <;> rfl

/-! ## The description -/

/-- The lines of a body; one that is no text has none. -/
def bodyFields (body : Bytes) : List (Str × Str) := ((fromUtf8 body).map sdpFields).getD []

/-- The address that counts for what an audio section says: its own, else the session's, else the
origin's. -/
def addressFor (fields : List (Str × Str)) (audio : Audio) : Option Connection :=
  (audio.connection.or (connectionIn (sections fields).1)).or (lastOf 'o' originAddress fields)

/-- The description is that of the audio section: its own direction counts, else the session's. -/
structure Describes (fields : List (Str × Str)) (block : Media)
    (description : SdpAudioDescription) : Prop where
  mediaPort : description.mediaPort = (block.read {}).mediaPort
  transport : description.transport = (block.read {}).transport
  codecs : description.codecs = (block.read {}).codecs
  ptime : description.ptime = (block.read {}).ptime
  connection : some (description.addrType, description.connectionAddr) =
    addressFor fields (block.read {})
  direction : description.direction =
    ((directionOf block.fields).or (directionOf (sections fields).1)).getD .sendRecv

/-- **What is returned.** -/
theorem parseAudioSdp_ok {body : Bytes} {description : SdpAudioDescription}
    (h : parseAudioSdp body = .ok description) :
    description.mediaPort = (readAll (audioSections (bodyFields body))).mediaPort ∧
      description.transport = (readAll (audioSections (bodyFields body))).transport ∧
      description.codecs = (readAll (audioSections (bodyFields body))).codecs ∧
      description.ptime = (readAll (audioSections (bodyFields body))).ptime ∧
      some (description.addrType, description.connectionAddr) =
        addressFor (bodyFields body) (readAll (audioSections (bodyFields body))) ∧
      description.direction = (readAll (audioSections (bodyFields body))).direction := by
  rw [parseAudioSdp] at h
  split at h
  · cases h
  · cases htext : fromUtf8 body with
    | none =>
      rw [htext] at h
      cases h
    | some text =>
      rw [htext] at h
      dsimp only at h
      have hfields : bodyFields body = sdpFields text := by
        rw [bodyFields, htext]
        rfl
      rw [hfields]
      generalize sdpFields text = fields at h ⊢
      obtain ⟨haudio, hconnection, -⟩ := foldl_line fields
      have horigin : (fields.foldl SdpState.line {}).originConnection =
          lastOf 'o' originAddress fields :=
        (foldl_last SdpState.originConnection originConnection_line fields {}).trans Option.or_none
      rw [SdpState.finish] at h
      split at h
      · cases h
      · dsimp only at h
        split at h
        · cases h
        · rw [haudio, hconnection, horigin] at h
          split at h
          · cases h
          · next addrType connectionAddr haddress =>
            obtain rfl := Except.ok.inj h
            exact ⟨rfl, rfl, rfl, rfl, haddress.symm, rfl⟩

/-! ## Sections that do not interfere -/

/-- What a section gives, or what it inherits where it gives nothing, stands: those behind give
nothing else, and those before give nothing else where neither it nor those behind give anything. -/
def Kept {α : Type} (inherited fallback before own behind : Option α) : Prop :=
  (∀ value, behind = some value → own.or inherited = some value) ∧
    (behind = none → own = none → before.or fallback = inherited)

/-- `Kept` says that the sections behind and before change nothing. -/
theorem kept_iff {α : Type} {inherited fallback before own behind : Option α} :
    (behind.or (own.or before)).or fallback = own.or inherited ↔
      Kept inherited fallback before own behind := by
  rw [Kept]
  cases behind with
  | some value => simp [eq_comm]
  | none =>
    cases own with
    | some value => simp
    | none => simp

/-- Nothing behind and nothing before. -/
theorem kept_alone {α : Type} (fallback own : Option α) : Kept fallback fallback none own none :=
  kept_iff.mp (by rw [Option.or_none, Option.none_or])

/-- Nothing behind, and something of its own. -/
theorem kept_own {α : Type} {inherited fallback before own : Option α} (h : own ≠ none) :
    Kept inherited fallback before own none :=
  ⟨fun value hvalue => absurd hvalue.symm (Option.some_ne_none value), fun _ hnone =>
    absurd hnone h⟩

theorem length_filterMap_le {α β : Type} {F G : α → Option β} {own : List α}
    (h : ∀ a ∈ own, F a = none → G a = none) :
    (own.filterMap G).length ≤ (own.filterMap F).length := by
  induction own with
  | nil => exact le_rfl
  | cons a rest ih =>
    obtain ⟨ha, hrest⟩ := forall_mem_cons.mp h
    have hle := ih hrest
    rw [filterMap_cons, filterMap_cons]
    cases hF : F a with
    | none => rwa [ha hF]
    | some b =>
      cases G a with
      | none => exact hle.trans (Nat.le_succ _)
      | some c => exact Nat.succ_le_succ hle

theorem filterMap_eq_iff {α β : Type} {F G : α → Option β} {own : List α}
    (h : ∀ a ∈ own, F a = none → G a = none) :
    own.filterMap F = own.filterMap G ↔ ∀ a ∈ own, F a = G a := by
  refine ⟨fun heq => ?_, filterMap_congr⟩
  induction own with
  | nil => exact fun _ hmem => absurd hmem not_mem_nil
  | cons a rest ih =>
    obtain ⟨ha, hrest⟩ := forall_mem_cons.mp h
    rw [filterMap_cons, filterMap_cons] at heq
    rw [forall_mem_cons]
    cases hF : F a with
    | none =>
      rw [hF, ha hF] at heq
      exact ⟨(ha hF).symm, ih hrest heq⟩
    | some b =>
      rw [hF] at heq
      cases hG : G a with
      | none =>
        rw [hG] at heq
        have hle : (rest.filterMap G).length ≤ (rest.filterMap F).length :=
          length_filterMap_le hrest
        have hlength : (rest.filterMap F).length + 1 = (rest.filterMap G).length :=
          congrArg length heq
        omega
      | some c =>
        rw [hG] at heq
        obtain ⟨hhead, htail⟩ := cons.inj heq
        exact ⟨congrArg some hhead, ih hrest htail⟩

/-- What is collected from a part is what is collected from the whole, another way, just when the
rest gives nothing and the part gives the same. -/
theorem filterMap_append_eq_iff {α β : Type} {F G : α → Option β} {front own back : List α}
    (h : ∀ a ∈ own, F a = none → G a = none) :
    (front ++ (own ++ back)).filterMap F = own.filterMap G ↔
      (∀ a ∈ front ++ back, F a = none) ∧ ∀ a ∈ own, F a = G a := by
  rw [← filterMap_eq_iff h, ← filterMap_eq_nil_iff, filterMap_append, filterMap_append,
    filterMap_append]
  constructor
  · intro heq
    have hlength := congrArg length heq
    have hle := length_filterMap_le h
    rw [length_append, length_append] at hlength
    have hfront : front.filterMap F = [] := length_eq_zero_iff.mp (by omega)
    have hback : back.filterMap F = [] := length_eq_zero_iff.mp (by omega)
    rw [hfront, hback, nil_append, append_nil] at heq
    exact ⟨by rw [hfront, hback]; rfl, heq⟩
  · rintro ⟨hrest, hown⟩
    obtain ⟨hfront, hback⟩ := append_eq_nil_iff.mp hrest
    rw [hfront, hback, nil_append, append_nil, hown]

/-- The audio sections before and behind do not interfere with a section: the single values it gives
or inherits are kept, they list no payload type that has a mapping, and the mappings and parameters
of its own payload types are kept. -/
structure Unmixed (fields : List (Str × Str)) (front : List Media) (block : Media)
    (back : List Media) : Prop where
  mediaPort : Kept (some 0) (some 0) (lastIn Media.port front) block.port (lastIn Media.port back)
  transport : Kept (some .rtpAvp) (some .rtpAvp) (lastIn Media.transport front) block.transport
    (lastIn Media.transport back)
  ptime : Kept (some none) (some none) (lastIn Media.ptime front) block.ptime
    (lastIn Media.ptime back)
  connection : Kept ((connectionIn (sections fields).1).or (lastOf 'o' originAddress fields))
    ((connectionIn (sections fields).1).or (lastOf 'o' originAddress fields))
    (lastIn Media.connection front) block.connection (lastIn Media.connection back)
  /-- The code reads no direction in the session part. -/
  direction : Kept ((directionOf (sections fields).1).or (some .sendRecv)) (some .sendRecv)
    (lastIn Media.direction front) block.direction (lastIn Media.direction back)
  foreign : ∀ other ∈ front ++ back, ∀ pt ∈ other.payloads,
    staticMapping pt = none ∧ ∀ media ∈ front ++ block :: back, media.mapping pt = none
  mapping : ∀ pt ∈ block.payloads, Kept (staticMapping pt) (staticMapping pt)
    (lastIn (Media.mapping pt) front) (block.mapping pt) (lastIn (Media.mapping pt) back)
  /-- The first parameters count, so that those before come last here. -/
  format : ∀ pt ∈ block.payloads, (block.mapping pt).or (staticMapping pt) ≠ none →
    Kept none none (firstIn (Media.format pt) back) (block.format pt)
      (firstIn (Media.format pt) front)

section Interference

variable {front : List Media} {block : Media} {back : List Media}

/-- A value of the accumulators that later sections override. -/
theorem readAll_kept {α : Type} (view : Audio → Option α) {gives : Media → Option α}
    (hreads : ∀ audio block, view (Media.read audio block) = (gives block).or (view audio)) :
    view (readAll (front ++ block :: back)) = view (block.read {}) ↔
      Kept (view {}) (view {}) (lastIn gives front) (gives block) (lastIn gives back) := by
  rw [← kept_iff, ← lastIn_append, hreads, readAll, foldl_last view hreads]
  rfl

/-- A payload type without a codec: not static, and mapped by no section. -/
theorem mappingIn_eq_none (media : List Media) (pt : UInt8) : mappingIn media pt = none ↔
    staticMapping pt = none ∧ ∀ other ∈ media, other.mapping pt = none := by
  rw [mappingIn, Option.or_eq_none_iff, lastIn, getLast?_eq_none_iff,
    filterMap_eq_nil_iff, and_comm]

theorem mappingIn_payloadType {media : List Media} {pt : UInt8} {entry : RtpMap}
    (h : mappingIn media pt = some entry) : entry.payloadType = pt := by
  rw [mappingIn, Option.or_eq_some_iff] at h
  rcases h with hlast | ⟨-, hstatic⟩
  · obtain ⟨other, -, hmapping⟩ := mem_filterMap.mp (mem_of_getLast? hlast)
    obtain ⟨field, -, hgiven⟩ := mem_filterMap.mp (mem_of_getLast? hmapping)
    rw [given] at hgiven
    split at hgiven
    · exact eq_of_beq (Option.filter_eq_some_iff.mp hgiven).2
    · cases hgiven
  · exact staticMapping_payloadType hstatic

/-- The codec of a payload type is that of its own section just when its mapping is, and, if there
is one, its parameters are. -/
theorem codecIn_eq_iff (media : List Media) (pt : UInt8) :
    codecIn media pt = codecIn [block] pt ↔ mappingIn media pt = mappingIn [block] pt ∧
      (mappingIn [block] pt ≠ none →
        firstIn (Media.format pt) media = firstIn (Media.format pt) [block]) := by
  rw [codecIn, codecIn]
  cases hall : mappingIn media pt with
  | none =>
    cases mappingIn [block] pt with
    | none => simp
    | some own => simp
  | some entry =>
    cases hown : mappingIn [block] pt with
    | none => simp
    | some own =>
      rw [Option.map_some, Option.map_some, Option.some_inj, Option.some_inj]
      constructor
      · intro heq
        obtain ⟨hcodec, -, hclock, hchannels, hfmtp⟩ := SdpCodec.mk.inj heq
        have htype := (mappingIn_payloadType hall).trans (mappingIn_payloadType hown).symm
        exact ⟨by cases entry; cases own; simp_all, fun _ => hfmtp⟩
      · rintro ⟨rfl, hfmtp⟩
        rw [hfmtp (Option.some_ne_none _)]

/-- When the codecs of all sections are those of one. -/
theorem codecs_kept : (readAll (front ++ block :: back)).codecs = (block.read {}).codecs ↔
    (∀ other ∈ front ++ back, ∀ pt ∈ other.payloads,
      staticMapping pt = none ∧ ∀ media ∈ front ++ block :: back, media.mapping pt = none) ∧
    (∀ pt ∈ block.payloads, Kept (staticMapping pt) (staticMapping pt)
      (lastIn (Media.mapping pt) front) (block.mapping pt) (lastIn (Media.mapping pt) back)) ∧
    ∀ pt ∈ block.payloads, (block.mapping pt).or (staticMapping pt) ≠ none →
      Kept none none (firstIn (Media.format pt) back) (block.format pt)
        (firstIn (Media.format pt) front) := by
  have hone : (block.read {}).codecs = block.payloads.filterMap (codecIn [block]) := by
    rw [← append_nil block.payloads]
    exact codecs_readAll [block]
  have hmapping : ∀ pt, mappingIn [block] pt = (block.mapping pt).or (staticMapping pt) := by
    intro pt
    rw [mappingIn, lastIn, filterMap_cons]
    cases block.mapping pt <;> rfl
  have hformat : ∀ pt, firstIn (Media.format pt) [block] = (block.format pt).or none := by
    intro pt
    rw [firstIn, filterMap_cons]
    cases block.format pt <;> rfl
  have hnone : ∀ pt, codecIn (front ++ block :: back) pt = none ↔ staticMapping pt = none ∧
      ∀ media ∈ front ++ block :: back, media.mapping pt = none := fun pt => by
    rw [codecIn, Option.map_eq_none_iff, mappingIn_eq_none]
  rw [hone, codecs_readAll, flatMap_append, flatMap_cons, filterMap_append_eq_iff]
  · refine and_congr ?_ ?_
    · rw [← flatMap_append]
      constructor
      · intro h other hother pt hpt
        exact (hnone pt).mp (h pt (mem_flatMap.mpr ⟨other, hother, hpt⟩))
      · intro h pt hpt
        obtain ⟨other, hother, hpt⟩ := mem_flatMap.mp hpt
        exact (hnone pt).mpr (h other hother pt hpt)
    · rw [← forall₂_and]
      refine forall₂_congr fun pt _ => ?_
      rw [codecIn_eq_iff, hmapping, hformat, mappingIn, lastIn_append, kept_iff, firstIn_append]
      refine and_congr_right fun _ => imp_congr_right fun _ => ?_
      rw [← kept_iff, Option.or_none, Option.or_none]
  · intro pt _ hall
    obtain ⟨hstatic, hnone⟩ := (hnone pt).mp hall
    rw [codecIn, Option.map_eq_none_iff, hmapping, hstatic,
      hnone block (mem_append_right _ mem_cons_self)]
    rfl

end Interference

/-- **One section of several.** -/
theorem describes_iff_unmixed {body : Bytes} {description : SdpAudioDescription}
    (h : parseAudioSdp body = .ok description) {front : List Media} {block : Media}
    {back : List Media} (hsections : audioSections (bodyFields body) = front ++ block :: back) :
    Describes (bodyFields body) block description ↔
      Unmixed (bodyFields body) front block back := by
  obtain ⟨hport, htransport, hcodecs, hptime, haddress, hdirection⟩ := parseAudioSdp_ok h
  generalize bodyFields body = fields at *
  rw [hsections] at hport htransport hcodecs hptime haddress hdirection
  have hport : description.mediaPort = (block.read {}).mediaPort ↔ Kept (some 0) (some 0)
      (lastIn Media.port front) block.port (lastIn Media.port back) := by
    rw [hport, ← Option.some_inj]
    exact readAll_kept (fun a => some a.mediaPort) fun a b => (read_reads a b).mediaPort
  have htransport : description.transport = (block.read {}).transport ↔
      Kept (some .rtpAvp) (some .rtpAvp) (lastIn Media.transport front) block.transport
        (lastIn Media.transport back) := by
    rw [htransport, ← Option.some_inj]
    exact readAll_kept (fun a => some a.transport) fun a b => (read_reads a b).transport
  have hptime : description.ptime = (block.read {}).ptime ↔ Kept (some none) (some none)
      (lastIn Media.ptime front) block.ptime (lastIn Media.ptime back) := by
    rw [hptime, ← Option.some_inj]
    exact readAll_kept (fun a => some a.ptime) fun a b => (read_reads a b).ptime
  have haddress : some (description.addrType, description.connectionAddr) =
      addressFor fields (block.read {}) ↔
      Kept ((connectionIn (sections fields).1).or (lastOf 'o' originAddress fields))
        ((connectionIn (sections fields).1).or (lastOf 'o' originAddress fields))
        (lastIn Media.connection front) block.connection (lastIn Media.connection back) := by
    rw [haddress, addressFor, addressFor, Option.or_assoc, Option.or_assoc,
      (read_reads {} block).connection, readAll,
      foldl_last Audio.connection fun a b => (read_reads a b).connection, Option.or_none,
      Option.or_none, ← lastIn, lastIn_append]
    exact kept_iff
  have hdirection : description.direction =
      ((directionOf block.fields).or (directionOf (sections fields).1)).getD .sendRecv ↔
      Kept ((directionOf (sections fields).1).or (some .sendRecv)) (some .sendRecv)
        (lastIn Media.direction front) block.direction (lastIn Media.direction back) := by
    rw [hdirection, ← Option.some_inj, ← Option.or_some, Option.or_assoc, readAll,
      foldl_last (fun a : Audio => some a.direction) fun a b => (read_reads a b).direction,
      ← lastIn, lastIn_append]
    exact kept_iff
  constructor
  · intro hdescribes
    obtain ⟨hforeign, hmapping, hformat⟩ := codecs_kept.mp (hcodecs.symm.trans hdescribes.codecs)
    exact {
      mediaPort := hport.mp hdescribes.mediaPort
      transport := htransport.mp hdescribes.transport
      ptime := hptime.mp hdescribes.ptime
      connection := haddress.mp hdescribes.connection
      direction := hdirection.mp hdescribes.direction
      foreign := hforeign
      mapping := hmapping
      format := hformat }
  · intro hunmixed
    exact {
      mediaPort := hport.mpr hunmixed.mediaPort
      transport := htransport.mpr hunmixed.transport
      ptime := hptime.mpr hunmixed.ptime
      codecs := hcodecs.trans
        (codecs_kept.mpr ⟨hunmixed.foreign, hunmixed.mapping, hunmixed.format⟩)
      connection := haddress.mpr hunmixed.connection
      direction := hdirection.mpr hunmixed.direction }

/-- A section that is alone is mixed with nothing; only a direction of the session part can be
lost. -/
theorem unmixed_alone {fields : List (Str × Str)} {block : Media} : Unmixed fields [] block [] ↔
    directionOf block.fields ≠ none ∨ directionOf (sections fields).1 = none ∨
      directionOf (sections fields).1 = some .sendRecv := by
  have hdirection : Kept ((directionOf (sections fields).1).or (some .sendRecv)) (some .sendRecv)
      none (directionOf block.fields) none ↔ directionOf block.fields ≠ none ∨
        directionOf (sections fields).1 = none ∨
        directionOf (sections fields).1 = some .sendRecv := by
    rw [← kept_iff]
    cases directionOf block.fields with
    | some direction => simp
    | none => cases directionOf (sections fields).1 with
      | some direction => simp [eq_comm]
      | none => simp
  refine ⟨fun h => hdirection.mp h.direction, fun h => ?_⟩
  exact {
    mediaPort := kept_alone _ _
    transport := kept_alone _ _
    ptime := kept_alone _ _
    connection := kept_alone _ _
    direction := hdirection.mpr h
    foreign := fun _ hother => absurd hother not_mem_nil
    mapping := fun _ _ => kept_alone _ _
    format := fun _ _ _ => kept_alone _ _ }

/-- **Audio sections.** The description of an accepted body is that of an audio section just when
the other audio sections do not interfere with it and no direction of the session part is lost; when
there is only one, just when it gives a direction itself or the session part gives none or the
default. -/
theorem describes_iff {body : Bytes} {description : SdpAudioDescription}
    (h : parseAudioSdp body = .ok description) :
    ((∃ block ∈ audioSections (bodyFields body),
        Describes (bodyFields body) block description) ↔
      ∃ front block back, audioSections (bodyFields body) = front ++ block :: back ∧
        Unmixed (bodyFields body) front block back) ∧
    (∀ front block back, audioSections (bodyFields body) = front ++ block :: back →
      (Describes (bodyFields body) block description ↔
        Unmixed (bodyFields body) front block back)) ∧
    ∀ block, audioSections (bodyFields body) = [block] →
      (Describes (bodyFields body) block description ↔
        directionOf block.fields ≠ none ∨ directionOf (sections (bodyFields body)).1 = none ∨
          directionOf (sections (bodyFields body)).1 = some .sendRecv) := by
  refine ⟨⟨?_, ?_⟩, fun _ _ _ => describes_iff_unmixed h, fun block hone => ?_⟩
  · rintro ⟨block, hmem, hdescribes⟩
    obtain ⟨front, back, hsections⟩ := append_of_mem hmem
    exact ⟨front, block, back, hsections, (describes_iff_unmixed h hsections).mp hdescribes⟩
  · rintro ⟨front, block, back, hsections, hunmixed⟩
    refine ⟨block, ?_, (describes_iff_unmixed h hsections).mpr hunmixed⟩
    rw [hsections]
    exact mem_append_right _ mem_cons_self
  · exact (@describes_iff_unmixed _ _ h [] block [] hone).trans unmixed_alone

/-- A body with two audio sections, the second with a payload type that is not mapped. -/
def plainBody : Bytes :=
  asBytes ("o=- 1 1 IN IP4 192.0.2.1\r\nm=audio 5004 RTP/AVP 0\r\nc=IN IP4 192.0.2.2\r\n" ++
    "a=sendonly\r\nm=audio 5004 RTP/AVP 18\r\n").toList

def plainSection : Media :=
  ⟨"audio 5004 RTP/AVP 0".toList,
    [("c".toList, "IN IP4 192.0.2.2".toList), ("a".toList, "sendonly".toList)]⟩

def plainDescription : SdpAudioDescription :=
  { sessionId := 1
    sessionVersion := 1
    originUsername := "-".toList
    connectionAddr := "192.0.2.2".toList
    addrType := .ip4
    mediaPort := 5004
    transport := .rtpAvp
    codecs := [⟨.pcmu, 0, 8000, none, none⟩]
    direction := .sendOnly
    ptime := none }

/-- The second section gives nothing that the first does not give. -/
theorem describes_iff_plain : Describes (bodyFields plainBody) plainSection plainDescription :=
  ((@describes_iff plainBody plainDescription (by decide +kernel)).2.1 []
    plainSection [⟨"audio 5004 RTP/AVP 18".toList, []⟩] (by decide +kernel)).mpr
    { mediaPort := kept_iff.mp (by decide +kernel)
      transport := kept_iff.mp (by decide +kernel)
      ptime := kept_alone _ _
      connection := kept_own (by decide +kernel)
      direction := kept_own (by decide +kernel)
      foreign := by decide +kernel
      mapping := fun _ _ => kept_alone _ _
      format := fun _ _ _ => kept_alone _ _ }

/-- The same call on hold for the whole session. -/
def heldBody : Bytes :=
  asBytes "o=- 1 1 IN IP4 192.0.2.1\r\na=inactive\r\nm=audio 5004 RTP/AVP 0\r\n".toList

/-- The description of a call on hold says that audio flows both ways. -/
theorem heldBody_not_describes : ∃ description, parseAudioSdp heldBody = .ok description ∧
    ¬∃ block ∈ audioSections (bodyFields heldBody),
      Describes (bodyFields heldBody) block description := by
  refine ⟨{ plainDescription with
    connectionAddr := "192.0.2.1".toList
    direction := .sendRecv }, by decide +kernel, ?_⟩
  rintro ⟨block, hmem, hdescribes⟩
  have hone : audioSections (bodyFields heldBody) = [⟨"audio 5004 RTP/AVP 0".toList, []⟩] := by
    decide +kernel
  rw [hone, mem_singleton] at hmem
  subst hmem
  have hheld : (directionOf (sections (bodyFields heldBody)).1).getD .sendRecv = .inactive := by
    decide +kernel
  have hdirection := hdescribes.direction
  change MediaDirection.sendRecv = (directionOf (sections (bodyFields heldBody)).1).getD .sendRecv
    at hdirection
  rw [hheld] at hdirection
  cases hdirection

end SimMaster.Voice
