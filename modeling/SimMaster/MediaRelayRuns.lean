import SimMaster.MediaRelay

/-!
# What a run of the relay does

Whatever has arrived before, the relay reads within the datagram, sends it to the other leg and
changes no more of it than the payload type (`relay_transparent`). The address a leg is sent to is
the source of what was accepted on it last, so it is the first source just as long as no other has
shown up (`latched_iff`).
-/

namespace SimMaster.Media

open Rust Machine List Option

/-! ## Payload types -/

theorem onLeg_peer (mapping : PayloadTypeMapping) (leg : RelayLeg) :
    mapping.onLeg leg.peer = (mapping.onLeg leg).swap := by
  cases leg <;> rfl

/-- The mappings number the payload types of each leg differently. -/
structure Bijective (mappings : List PayloadTypeMapping) : Prop where
  operator : (mappings.map fun mapping => mapping.operator).Nodup
  internal : (mappings.map fun mapping => mapping.internal).Nodup

variable {mappings : List PayloadTypeMapping}

theorem Bijective.onLeg (h : Bijective mappings)
    (leg : RelayLeg) : (mappings.map fun mapping => (mapping.onLeg leg).1).Nodup := by
  cases leg with
  | operator => exact h.operator
  | internal => exact h.internal

variable {leg : RelayLeg} {n m : UInt8}

theorem mem_of_translate
    (h : translate mappings leg n = some m) : ∃ mapping ∈ mappings, mapping.onLeg leg = (n, m) := by
  obtain ⟨mapping, hmem, hmapping⟩ := exists_of_findSome?_eq_some h
  refine ⟨mapping, hmem, ?_⟩
  split at hmapping
  · next hn => exact Prod.ext hn.symm (some.inj hmapping)
  · cases hmapping

theorem translate_of_mem (h : Bijective mappings) {mapping : PayloadTypeMapping}
    (hmem : mapping ∈ mappings)
    (hmapping : mapping.onLeg leg = (n, m)) : translate mappings leg n = some m := by
  cases htranslate : translate mappings leg n with
  | none =>
    have hnone := findSome?_eq_none_iff.mp htranslate mapping hmem
    rw [hmapping, if_pos rfl] at hnone
    cases hnone
  | some m' =>
    obtain ⟨other, hother, honLeg⟩ := mem_of_translate htranslate
    have hsame : other = mapping := inj_on_of_nodup_map (h.onLeg leg) hother hmem
      (by rw [honLeg, hmapping])
    rw [hsame, hmapping] at honLeg
    exact congrArg some (Prod.ext_iff.mp honLeg).2.symm

theorem translate_eq_none :
    translate mappings leg n = none ↔ ∀ mapping ∈ mappings, (mapping.onLeg leg).1 ≠ n := by
  rw [translate, findSome?_eq_none_iff]
  refine forall₂_congr fun mapping _ => ?_
  rw [ite_eq_right_iff]
  exact ⟨fun h heq => absurd (h heq.symm) (some_ne_none _), fun h heq => absurd heq.symm h⟩

/-! ## One datagram -/

/-- The datagram is RTP: it is no RTCP, and it is read as a packet. -/
def IsRtp (datagram : Bytes) (p : RtpPacket) : Prop :=
  isRtcpMuxDatagram datagram = false ∧ RtpPacket.parse datagram = some (some p)

/-- What may be sent for a datagram. -/
inductive Relays (policy : MediaRelayPolicy) (core : RtpRelayCore) (x : Ingested) :
    Option Forwarded → Prop
  | nothing : Relays policy core x none
  | asIs (dest : Rust.SocketAddr) (h : ∀ p, IsRtp x.datagram p →
      policy.allowsRtpFrom x.leg = true ∧
        translate core.payloadTypeMappings x.leg p.payloadType = none) :
    Relays policy core x (some ⟨x.leg.peer, dest, x.datagram⟩)
  | retyped (dest : Rust.SocketAddr) (p : RtpPacket) (hreads : IsRtp x.datagram p)
      (allowed : policy.allowsRtpFrom x.leg = true) (second : UInt8)
      (hsecond : x.datagram[1]? = some second) (hp : p.payloadType = second &&& 0x7f)
      (payloadType : UInt8) (hle : payloadType ≤ 0x7f)
      (htranslate : translate core.payloadTypeMappings x.leg p.payloadType = some payloadType) :
    Relays policy core x
      (some ⟨x.leg.peer, dest, x.datagram.set 1 (second &&& 0x80 ||| payloadType)⟩)

theorem setLeg_mappings (core : RtpRelayCore) (endpoint : LegEndpoint) (leg : RelayLeg) :
    (core.setLeg endpoint leg).payloadTypeMappings = core.payloadTypeMappings := by
  cases leg <;> rfl

/-- What a datagram is taken for. -/
theorem classify_cases (requireRtp : Bool) (datagram : Bytes) :
    classify requireRtp datagram = some (.error .notRtp) ∨
      (∃ p, IsRtp datagram p ∧ classify requireRtp datagram = some (.ok .rtp)) ∨
      (∀ p, ¬IsRtp datagram p) ∧ ∃ kind, kind ≠ .rtp ∧
        classify requireRtp datagram = some (.ok kind) := by
  rw [classify]
  cases hrtcp : isRtcpMuxDatagram datagram with
  | true =>
    refine Or.inr (Or.inr ⟨fun p hp => ?_, _, MediaDatagramKind.noConfusion, rfl⟩)
    rw [IsRtp, hrtcp] at hp
    exact Bool.noConfusion hp.1
  | false =>
    obtain ⟨p, hparse⟩ := RtpPacket.parse_isSome datagram
    rw [hparse]
    cases p with
    | some p => exact Or.inr (Or.inl ⟨p, ⟨hrtcp, hparse⟩, rfl⟩)
    | none =>
      cases requireRtp with
      | true => exact Or.inl rfl
      | false =>
        refine Or.inr (Or.inr ⟨fun p hp => ?_, .opaqueDatagram, MediaDatagramKind.noConfusion, rfl⟩)
        rw [IsRtp, hparse] at hp
        cases hp.2

/-- **One datagram.** It is read in range, and sent as it is or with another payload type. -/
theorem relays (policy : MediaRelayPolicy) (core : RtpRelayCore) (x : Ingested) :
    ∃ r, (forward policy core x).1 = some r ∧ Relays policy core x r := by
  rw [forward, ingest]
  rcases classify_cases core.requireRtp x.datagram with hclass | ⟨p, hreads, hclass⟩ |
    ⟨hother, kind, hkind, hclass⟩
  · rw [hclass]
    exact ⟨none, rfl, .nothing⟩
  · rw [hclass]
    obtain ⟨second, hsecond, htype, -⟩ := RtpPacket.parse_second hreads.2
    dsimp only
    rw [setLeg_mappings]
    cases (((core.setLeg _ x.leg).leg x.leg.peer).remote : Option Rust.SocketAddr) with
    | none => exact ⟨none, rfl, .nothing⟩
    | some dest =>
      rw [if_pos rfl, hsecond]
      dsimp only [map_some, bind_some]
      cases hallowed : policy.allowsRtpFrom x.leg with
      | false =>
        exact ⟨none, rfl, .nothing⟩
      | true =>
        rw [if_neg fun h => h.2 rfl, if_pos rfl, ← htype]
        cases htranslate : translate core.payloadTypeMappings x.leg p.payloadType with
        | none =>
          refine ⟨_, rfl, .asIs dest fun q hq => ⟨hallowed, ?_⟩⟩
          obtain rfl := some.inj (some.inj (hq.2.symm.trans hreads.2))
          exact htranslate
        | some payloadType =>
          dsimp only
          rw [rewriteRtpPayloadType]
          by_cases hle : 0x7f < payloadType
          · rw [if_pos hle]
            exact ⟨none, rfl, .nothing⟩
          · rw [if_neg hle, hreads.2, hsecond]
            exact ⟨_, rfl, .retyped dest p hreads hallowed second hsecond htype payloadType
              (UInt8.not_lt.mp hle) htranslate⟩
  · rw [hclass]
    dsimp only
    cases (((core.setLeg _ x.leg).leg x.leg.peer).remote : Option Rust.SocketAddr) with
    | none => exact ⟨none, rfl, .nothing⟩
    | some dest =>
      rw [if_neg hkind]
      dsimp only [map_some, bind_none]
      rw [if_neg fun h => hkind h.1, if_neg hkind]
      exact ⟨_, rfl, .asIs dest fun p hp => absurd hp (hother p)⟩

/-! ## What is sent -/

/-- The datagram with another payload type in octet 1. -/
def retype (datagram : Bytes) (payloadType : UInt8) : Bytes :=
  datagram.set 1 (datagram.getD 1 0 &&& 0x80 ||| payloadType)

variable {datagram : Bytes} {second : UInt8}

theorem retype_eq (h : datagram[1]? = some second) (payloadType : UInt8) :
    retype datagram payloadType = datagram.set 1 (second &&& 0x80 ||| payloadType) := by
  rw [retype, getD_eq_getElem?_getD, h, getD_some]

/-- The payload type of RTP that arrives on the leg can be told from the one it is sent with: it is
mapped, and with its new number the datagram is not taken for RTCP, or no mapping has it on either
side. -/
def Restorable (mappings : List PayloadTypeMapping) (leg : RelayLeg) (datagram : Bytes) : Prop :=
  ∀ p, IsRtp datagram p →
    (∃ mapping ∈ mappings, (mapping.onLeg leg).1 = p.payloadType ∧
      isRtcpMuxDatagram (retype datagram (mapping.onLeg leg).2) = false) ∨
    ∀ mapping ∈ mappings, (mapping.onLeg leg).1 ≠ p.payloadType ∧
      (mapping.onLeg leg).2 ≠ p.payloadType

/-- What is sent for a datagram. -/
structure Sent (mappings : List PayloadTypeMapping) (x : Ingested) (f : Forwarded) : Prop where
  leg : f.toLeg = x.leg.peer
  /-- RTCP is never rewritten -/
  rtcp : isRtcpMuxDatagram x.datagram = true → f.datagram = x.datagram
  /-- nothing differs but the lower seven bits of octet 1 -/
  octets : ∃ second, f.datagram = x.datagram.set 1 second ∧
    ∀ b, x.datagram[1]? = some b → second &&& 0x80 = b &&& 0x80
  changed : f.datagram ≠ x.datagram → ∃ p, IsRtp x.datagram p ∧
    ∃ mapping ∈ mappings, (mapping.onLeg x.leg).1 = p.payloadType
  parsed : ∀ p, RtpPacket.parse x.datagram = some (some p) →
    ∃ payloadType, RtpPacket.parse f.datagram = some (some { p with payloadType })
  /-- sent back through the opposite leg it is what it was, as far as that can be told -/
  restored : ∀ (policy : MediaRelayPolicy) (core : RtpRelayCore) (src : Rust.SocketAddr)
    (g : Forwarded), core.payloadTypeMappings = mappings →
    (forward policy core ⟨x.leg.peer, src, f.datagram⟩).1 = some (some g) →
    (g.datagram = x.datagram ↔ Restorable mappings x.leg x.datagram)

/-- What the relay does with a datagram. -/
structure Transparent (policy : MediaRelayPolicy) (core : RtpRelayCore) (x : Ingested) : Prop where
  inRange : ∃ r, (forward policy core x).1 = some r
  held : ∀ p, IsRtp x.datagram p → policy.allowsRtpFrom x.leg = false →
    (forward policy core x).1 = some none
  sent : ∀ f, (forward policy core x).1 = some (some f) → Sent core.payloadTypeMappings x f

theorem set_self {b : UInt8} (h : datagram[1]? = some b) : datagram.set 1 b = datagram := by
  obtain ⟨hlt, rfl⟩ := List.getElem?_eq_some_iff.mp h
  exact set_getElem_self hlt

variable {x : Ingested} {policy : MediaRelayPolicy} {core : RtpRelayCore} {src : Rust.SocketAddr}
  {g : Forwarded}

/-- What was left as it is comes back as it was unless the opposite leg knows its number. -/
theorem restored_of_asIs
    (h : ∀ p, IsRtp x.datagram p → translate mappings x.leg p.payloadType = none)
    (hcore : core.payloadTypeMappings = mappings)
    (hg : Relays policy core ⟨x.leg.peer, src, x.datagram⟩ (some g)) :
    g.datagram = x.datagram ↔ Restorable mappings x.leg x.datagram := by
  cases hg with
  | asIs dest hback =>
    refine ⟨fun _ p hp => Or.inr fun mapping hmem => ⟨?_, ?_⟩, fun _ => rfl⟩
    · exact translate_eq_none.mp (h p hp) mapping hmem
    · have hnone := (hback p hp).2
      rw [hcore] at hnone
      have hne := translate_eq_none.mp hnone mapping hmem
      rwa [onLeg_peer] at hne
  | retyped dest p hreads _ second hsecond hp payloadType hle htranslate =>
    rw [hcore] at htranslate
    obtain ⟨mapping, hmem, hmapping⟩ := mem_of_translate htranslate
    rw [onLeg_peer, Prod.swap_eq_iff_eq_swap, Prod.swap_prod_mk] at hmapping
    have hunmapped := translate_eq_none.mp (h p hreads)
    have hne : payloadType ≠ p.payloadType := by
      have hne := hunmapped mapping hmem
      rwa [hmapping] at hne
    constructor
    · intro heq
      refine absurd ?_ hne
      have hoctet : (x.datagram.set 1 (second &&& 0x80 ||| payloadType))[1]? = some second := by
        change (x.datagram.set 1 (second &&& 0x80 ||| payloadType)) = x.datagram at heq
        rw [heq]
        exact hsecond
      obtain ⟨hlt, -⟩ := List.getElem?_eq_some_iff.mp hsecond
      rw [getElem?_set_self hlt] at hoctet
      rw [hp, ← some.inj hoctet, (SimMaster.retyped hle second).1]
    · intro hrestorable
      rcases hrestorable p hreads with ⟨other, hother, htype, -⟩ | hnone
      · exact absurd htype (hunmapped other hother)
      · have hne := (hnone mapping hmem).2
        rw [hmapping] at hne
        exact absurd rfl hne

/-- What was sent with another number comes back with its own unless it is taken for RTCP. -/
theorem restored_of_retyped (hmappings : Bijective mappings) {p : RtpPacket}
    (hreads : IsRtp x.datagram p) (hsecond : x.datagram[1]? = some second)
    (hp : p.payloadType = second &&& 0x7f) {payloadType : UInt8} (hle : payloadType ≤ 0x7f)
    (htranslate : translate mappings x.leg p.payloadType = some payloadType)
    (hcore : core.payloadTypeMappings = mappings)
    (hg : Relays policy core ⟨x.leg.peer, src, x.datagram.set 1 (second &&& 0x80 ||| payloadType)⟩
      (some g)) :
    g.datagram = x.datagram ↔ Restorable mappings x.leg x.datagram := by
  obtain ⟨mapping, hmem, hmapping⟩ := mem_of_translate htranslate
  have hpeer : mapping.onLeg x.leg.peer = (payloadType, p.payloadType) := by
    rw [onLeg_peer, hmapping, Prod.swap_prod_mk]
  have hback : translate mappings x.leg.peer payloadType = some p.payloadType :=
    translate_of_mem hmappings hmem hpeer
  obtain ⟨hlt, -⟩ := List.getElem?_eq_some_iff.mp hsecond
  obtain ⟨htype, hmarker⟩ := SimMaster.retyped hle second
  have hparse : RtpPacket.parse (x.datagram.set 1 (second &&& 0x80 ||| payloadType)) =
      some (some (p.withSecond (second &&& 0x80 ||| payloadType))) := by
    rw [RtpPacket.parse_set, hreads.2]
    rfl
  have hrestorable : Restorable mappings x.leg x.datagram ↔
      isRtcpMuxDatagram (x.datagram.set 1 (second &&& 0x80 ||| payloadType)) = false := by
    constructor
    · intro h
      rcases h p hreads with ⟨other, hother, hnumber, hrtcp⟩ | hnone
      · have hsame : other = mapping :=
          inj_on_of_nodup_map (hmappings.onLeg x.leg) hother hmem (by rw [hnumber, hmapping])
        rwa [hsame, hmapping, retype_eq hsecond] at hrtcp
      · have hne := (hnone mapping hmem).1
        rw [hmapping] at hne
        exact absurd rfl hne
    · intro hrtcp q hq
      obtain rfl := some.inj (some.inj (hq.2.symm.trans hreads.2))
      refine Or.inl ⟨mapping, hmem, by rw [hmapping], ?_⟩
      rw [hmapping, retype_eq hsecond]
      exact hrtcp
  rw [hrestorable]
  cases hg with
  | asIs dest hunmapped =>
    constructor
    · intro heq
      change x.datagram.set 1 (second &&& 0x80 ||| payloadType) = x.datagram at heq
      rw [heq]
      exact hreads.1
    · intro hrtcp
      have hnone := (hunmapped _ ⟨hrtcp, hparse⟩).2
      rw [hcore] at hnone
      change translate mappings x.leg.peer ((second &&& 0x80 ||| payloadType) &&& 0x7f) =
        none at hnone
      rw [htype, hback] at hnone
      cases hnone
  | retyped dest q hq _ second' hsecond' _ payloadType' _ htranslate' =>
    refine ⟨fun _ => hq.1, fun _ => ?_⟩
    have hsame : q = p.withSecond (second &&& 0x80 ||| payloadType) :=
      some.inj (some.inj (hq.2.symm.trans hparse))
    have hnumber : q.payloadType = payloadType := by
      rw [hsame]
      exact htype
    rw [hnumber, hcore] at htranslate'
    obtain rfl := some.inj (hback.symm.trans htranslate')
    have hself : second' = second &&& 0x80 ||| payloadType := by
      rw [getElem?_set_self hlt] at hsecond'
      exact (some.inj hsecond').symm
    change (x.datagram.set 1 (second &&& 0x80 ||| payloadType)).set 1
      (second' &&& 0x80 ||| p.payloadType) = x.datagram
    rw [set_set, hself, hmarker, hp, (marker_or_type second).1, set_self hsecond]

theorem sent_of_relays {f : Forwarded} (hmappings : Bijective core.payloadTypeMappings)
    (h : Relays policy core x (some f)) : Sent core.payloadTypeMappings x f := by
  cases h with
  | asIs dest hunmapped =>
    refine ⟨rfl, fun _ => rfl, ?_, fun hne => absurd rfl hne, fun p hp => ⟨p.payloadType, hp⟩,
      fun policy' core' src g hcore hg => ?_⟩
    · cases hsecond : x.datagram[1]? with
      | none =>
        refine ⟨0, ?_, fun b hb => by cases hb⟩
        rw [set_eq_of_length_le (List.getElem?_eq_none_iff.mp hsecond)]
      | some second =>
        exact ⟨second, (set_self hsecond).symm, fun b hb => by rw [some.inj hb]⟩
    · obtain ⟨r, hr, hrelays⟩ := relays policy' core' ⟨x.leg.peer, src, x.datagram⟩
      obtain rfl := some.inj (hr.symm.trans hg)
      exact restored_of_asIs (fun p hp => (hunmapped p hp).2) hcore hrelays
  | retyped dest p hreads _ second hsecond hp payloadType hle htranslate =>
    obtain ⟨-, hmarker⟩ := SimMaster.retyped hle second
    refine ⟨rfl, fun hrtcp => ?_, ⟨_, rfl, fun b hb => ?_⟩, fun _ => ⟨p, hreads, ?_⟩,
      fun q hq => ⟨payloadType, ?_⟩, fun policy' core' src g hcore hg => ?_⟩
    · rw [hreads.1] at hrtcp
      cases hrtcp
    · rw [hmarker, some.inj (hsecond.symm.trans hb)]
    · obtain ⟨mapping, hmem, hmapping⟩ := mem_of_translate htranslate
      exact ⟨mapping, hmem, by rw [hmapping]⟩
    · obtain rfl := some.inj (some.inj (hq.symm.trans hreads.2))
      obtain ⟨second', hsecond', -, hmarked⟩ := RtpPacket.parse_second hreads.2
      obtain rfl := some.inj (hsecond.symm.trans hsecond')
      rw [RtpPacket.parse_set, hreads.2, map_some, map_some, RtpPacket.withSecond,
        (SimMaster.retyped hle second).1, hmarker, ← hmarked]
    · obtain ⟨r, hr, hrelays⟩ := relays policy' core' ⟨x.leg.peer, src, _⟩
      obtain rfl := some.inj (hr.symm.trans hg)
      exact restored_of_retyped hmappings hreads hsecond hp hle htranslate hcore hrelays

theorem transparent
    (hmappings : Bijective core.payloadTypeMappings) (x : Ingested) :
    Transparent policy core x := by
  obtain ⟨r, hr, hrelays⟩ := relays policy core x
  refine ⟨⟨r, hr⟩, fun p hp hheld => ?_, fun f hf => ?_⟩
  · rw [hr]
    cases hrelays with
    | nothing => rfl
    | asIs dest h =>
      rw [(h p hp).1] at hheld
      cases hheld
    | retyped dest q _ allowed =>
      rw [allowed] at hheld
      cases hheld
  · obtain rfl := some.inj (hr.symm.trans hf)
    exact sent_of_relays hmappings hrelays

/-! ## Runs -/

/-- A relay with its mappings added one after the other. -/
def configured (operator internal : LegEndpoint) (requireRtp : Bool)
    (mappings : List PayloadTypeMapping) : RtpRelayCore :=
  mappings.foldl RtpRelayCore.withPayloadTypeMapping { operator, internal, requireRtp }

/-- What arrives changes neither the mappings nor what is required. -/
theorem ingest_keeps (core : RtpRelayCore) (x : Ingested) :
    (ingest core x).2.payloadTypeMappings = core.payloadTypeMappings ∧
      (ingest core x).2.requireRtp = core.requireRtp := by
  have hset : ∀ endpoint, (core.setLeg endpoint x.leg).payloadTypeMappings =
      core.payloadTypeMappings ∧ (core.setLeg endpoint x.leg).requireRtp = core.requireRtp := by
    intro endpoint
    cases x.leg <;> exact ⟨rfl, rfl⟩
  rw [ingest]
  split
  · exact ⟨rfl, rfl⟩
  · exact ⟨rfl, rfl⟩
  · dsimp only
    split
    · exact hset _
    · split
      · exact hset _
      · exact hset _

theorem forward_snd (policy : MediaRelayPolicy) (core : RtpRelayCore) (x : Ingested) :
    (forward policy core x).2 = (ingest core x).2 := by
  rw [forward]
  split
  · next h => rw [h]
  · next h => rw [h]
  · next h =>
    rw [h]
    split
    · rfl
    · split
      · split <;> rfl
      · rfl

/-- **The relay is transparent.** Whatever has arrived on either leg, the next datagram is read in
range, goes to the other leg if it goes anywhere, and is what it was but for a payload type that is
mapped. -/
theorem relay_transparent (operator internal : LegEndpoint) (requireRtp : Bool)
    (mappings : List PayloadTypeMapping) (policy : MediaRelayPolicy)
    (h : Bijective (configured operator internal requireRtp mappings).payloadTypeMappings)
    (xs : List Ingested) (x : Ingested) :
    Transparent policy (run (forward policy) (configured operator internal requireRtp mappings) xs)
      x := by
  refine transparent ?_ x
  refine @run_invariant _ _ _ (forward policy) (fun core => Bijective core.payloadTypeMappings) _ h
    (fun core y hcore => ?_) xs
  rw [forward_snd, (ingest_keeps core y).1]
  exact hcore

/-- The datagram is taken for media. -/
def accepted (requireRtp : Bool) (datagram : Bytes) : Bool :=
  match classify requireRtp datagram with
  | some (.ok _) => true
  | _ => false

/-- The sources of what was accepted on a leg, in order. -/
def sources (requireRtp : Bool) (leg : RelayLeg) (xs : List Ingested) : List Rust.SocketAddr :=
  (xs.filter fun x => x.leg = leg ∧ accepted requireRtp x.datagram).map Ingested.src

/-- What is sent to the leg goes to the first source of what was accepted on it before. -/
def TrustsFirst (core : RtpRelayCore) (leg : RelayLeg) (xs : List Ingested) : Prop :=
  ∀ front x back, xs = front ++ x :: back → ∀ first ∈ (sources core.requireRtp leg front).head?,
    ∀ decision, (ingest (run ingest core front) x).1 = some (.ok decision) →
      decision.toLeg = leg → decision.dest = first

/-- When a datagram for the leg is accepted, the latest source on the leg is the first one. -/
def NoStranger (requireRtp : Bool) (leg : RelayLeg) (xs : List Ingested) : Prop :=
  ∀ front x back, xs = front ++ x :: back → x.leg = leg.peer →
    accepted requireRtp x.datagram = true →
      (sources requireRtp leg front).getLast? = (sources requireRtp leg front).head?

theorem peer_peer (leg : RelayLeg) : leg.peer.peer = leg := by
  cases leg <;> rfl

theorem leg_setLeg (core : RtpRelayCore) (endpoint : LegEndpoint) (leg other : RelayLeg) :
    (core.setLeg endpoint leg).leg other = if leg = other then endpoint else core.leg other := by
  cases leg <;> cases other <;> rfl

/-- What is accepted is received by its leg, and the other leg does not notice. -/
theorem leg_ingest (core : RtpRelayCore) (x : Ingested) (leg : RelayLeg) :
    (ingest core x).2.leg leg = if x.leg = leg ∧ accepted core.requireRtp x.datagram then
      (core.leg leg).receive x.src x.datagram else core.leg leg := by
  rw [ingest, accepted]
  cases classify core.requireRtp x.datagram with
  | none => rw [if_neg fun haccepted => Bool.false_ne_true haccepted.2]
  | some result =>
    cases result with
    | error error => rw [if_neg fun haccepted => Bool.false_ne_true haccepted.2]
    | ok kind =>
      have hleg : (core.setLeg ((core.leg x.leg).receive x.src x.datagram) x.leg).leg leg =
          if x.leg = leg ∧ true = true then (core.leg leg).receive x.src x.datagram
          else core.leg leg := by
        rw [leg_setLeg]
        by_cases heq : x.leg = leg
        · rw [if_pos heq, if_pos ⟨heq, rfl⟩, heq]
        · rw [if_neg heq, if_neg fun h => heq h.1]
      dsimp only
      split
      · exact hleg
      · split
        · exact hleg
        · exact hleg

/-- A decision sends what was accepted to the address of the opposite leg. -/
theorem ingest_decides (core : RtpRelayCore) (x : Ingested) (dest : Rust.SocketAddr) :
    (∃ decision, (ingest core x).1 = some (.ok decision) ∧ decision.dest = dest) ↔
      accepted core.requireRtp x.datagram = true ∧ (core.leg x.leg.peer).remote = some dest := by
  have hpeer : ∀ endpoint, (core.setLeg endpoint x.leg).leg x.leg.peer = core.leg x.leg.peer := by
    intro endpoint
    rw [leg_setLeg, if_neg]
    cases x.leg <;> decide
  rw [ingest, accepted]
  rcases classify_cases core.requireRtp x.datagram with hclass | ⟨p, hreads, hclass⟩ |
    ⟨-, kind, hkind, hclass⟩
  · rw [hclass]
    exact ⟨fun h => (by cases h.choose_spec.1), fun h => (by cases h.1)⟩
  · rw [hclass]
    obtain ⟨second, hsecond, -⟩ := RtpPacket.parse_second hreads.2
    dsimp only
    rw [hpeer, hsecond]
    cases (core.leg x.leg.peer).remote with
    | none => exact ⟨fun h => (by cases h.choose_spec.1), fun h => (by cases h.2)⟩
    | some dest' =>
      refine ⟨fun ⟨decision, h, hdest⟩ => ⟨rfl, ?_⟩, fun ⟨_, hdest⟩ => ⟨_, rfl, ?_⟩⟩
      · cases h
        exact congrArg some hdest
      · exact some.inj hdest
  · rw [hclass]
    dsimp only
    rw [hpeer, if_neg hkind]
    cases (core.leg x.leg.peer).remote with
    | none => exact ⟨fun h => (by cases h.choose_spec.1), fun h => (by cases h.2)⟩
    | some dest' =>
      refine ⟨fun ⟨decision, h, hdest⟩ => ⟨rfl, ?_⟩, fun ⟨_, hdest⟩ => ⟨_, rfl, ?_⟩⟩
      · cases h
        exact congrArg some hdest
      · exact some.inj hdest

theorem toLeg_of_ingest {decision : ForwardDecision}
    (h : (ingest core x).1 = some (.ok decision)) : decision.toLeg = x.leg.peer := by
  rw [ingest] at h
  split at h
  · cases h
  · cases h
  · dsimp only at h
    split at h
    · cases h
    · split at h
      · cases h
      · cases h
        rfl

/-- A leg that latches is sent to the latest source on it. -/
theorem remote_run (h : (core.leg leg).latch = true) (xs : List Ingested) :
    (run ingest core xs).requireRtp = core.requireRtp ∧
      ((run ingest core xs).leg leg).latch = true ∧ ((run ingest core xs).leg leg).remote =
        (sources core.requireRtp leg xs).getLast?.or (core.leg leg).remote := by
  -- by induction on the run, of which one more datagram may be the latest on the leg
  induction xs using reverseRecOn with
  | nil => exact ⟨rfl, h, rfl⟩
  | append_singleton xs x ih =>
    obtain ⟨hrequire, hlatch, hremote⟩ := ih
    rw [run_concat, (ingest_keeps _ x).2, leg_ingest, hrequire]
    refine ⟨rfl, ?_⟩
    rw [sources, filter_append, map_append, filter_singleton]
    by_cases hlatest : x.leg = leg ∧ accepted core.requireRtp x.datagram = true
    · rw [if_pos hlatest, decide_eq_true hlatest, cond_true, map_singleton,
        getLast?_concat, some_or]
      refine ⟨hlatch, ?_⟩
      rw [LegEndpoint.receive]
      split
      · rfl
      · next hsame =>
        by_contra hne
        exact hsame ⟨hlatch, hne⟩
    · rw [if_neg hlatest, decide_eq_false hlatest, cond_false, map_nil, append_nil]
      exact ⟨hlatch, hremote⟩

/-- **Latching.** A leg that latches keeps to the first source on it just when no other source is
the latest when something is sent to it. -/
theorem latched_iff (core : RtpRelayCore) (leg : RelayLeg) (h : (core.leg leg).latch = true)
    (xs : List Ingested) : TrustsFirst core leg xs ↔ NoStranger core.requireRtp leg xs := by
  constructor
  · intro htrusts front x back hsplit hleg haccepted
    obtain ⟨hrequire, -, hremote⟩ := remote_run h front
    cases hlast : (sources core.requireRtp leg front).getLast? with
    | none => rw [List.getLast?_eq_none_iff.mp hlast, List.head?_nil]
    | some last =>
      rw [hlast, Option.some_or] at hremote
      obtain ⟨decision, hdecision, hdest⟩ := (ingest_decides (run ingest core front) x last).mpr
        ⟨hrequire ▸ haccepted, by rw [hleg, peer_peer, hremote]⟩
      have htoLeg : decision.toLeg = leg := by rw [toLeg_of_ingest hdecision, hleg, peer_peer]
      cases hhead : (sources core.requireRtp leg front).head? with
      | none =>
        rw [List.head?_eq_none_iff.mp hhead] at hlast
        cases hlast
      | some first =>
        rw [← hdest, htrusts front x back hsplit first hhead decision hdecision htoLeg]
  · intro hstranger front x back hsplit first hfirst decision hdecision htoLeg
    obtain ⟨hrequire, -, hremote⟩ := remote_run h front
    obtain ⟨haccepted, hdest⟩ :=
      (ingest_decides (run ingest core front) x decision.dest).mp ⟨decision, hdecision, rfl⟩
    have hleg : x.leg = leg.peer := by rw [← htoLeg, toLeg_of_ingest hdecision, peer_peer]
    rw [hrequire] at haccepted
    rw [hleg, peer_peer, hremote, hstranger front x back hsplit hleg haccepted,
      Option.mem_def.mp hfirst, Option.some_or] at hdest
    exact (Option.some.inj hdest).symm

/-! ## Two calls -/

def speechPacket (payloadType : UInt8) : RtpPacket :=
  ⟨payloadType, false, 1, 160, 0xdeadbeef, [0xaa, 0xbb, 0xcc]⟩

/-- An RTP packet of a payload type. -/
def speech (payloadType : UInt8) : Bytes := RtpPacket.encode (speechPacket payloadType)

/-- Speech is accepted as the packet that it was encoded from. -/
theorem accepted_speech {payloadType : UInt8} (htype : payloadType ≤ 0x7f)
    (hmux : isRtcpMuxDatagram (speech payloadType) = false) (requireRtp : Bool) :
    IsRtp (speech payloadType) (speechPacket payloadType) ∧
      accepted requireRtp (speech payloadType) = true := by
  have hparse : RtpPacket.parse (speech payloadType) = some (some (speechPacket payloadType)) :=
    RtpPacket.parse_encode _ htype (by decide : 1 < 256 ^ 2) (by decide : 160 < 256 ^ 4)
      (by decide : 0xdeadbeef < 256 ^ 4)
  refine ⟨⟨hmux, hparse⟩, ?_⟩
  rw [accepted, classify, hmux, hparse]
  rfl

def operatorAddr : Rust.SocketAddr := .v4 10 0 0 1 5004

def internalAddr : Rust.SocketAddr := .v4 10 0 0 2 40000

def strangerAddr : Rust.SocketAddr := .v4 192 0 2 9 9

/-- A call whose operator numbers telephone events 101 and whose other side numbers them 96. -/
def eventsCall : RtpRelayCore :=
  configured ⟨some operatorAddr, true, 0, 0⟩ ⟨some internalAddr, true, 0, 0⟩ true [⟨101, 96⟩]

def openPolicy : MediaRelayPolicy := ⟨true, true⟩

theorem relay_transparent_events : Bijective eventsCall.payloadTypeMappings ∧
      Transparent openPolicy (run (forward openPolicy) eventsCall
        [⟨.operator, operatorAddr, speech 101⟩]) ⟨.internal, internalAddr, speech 96⟩ :=
  have h : Bijective eventsCall.payloadTypeMappings := ⟨by decide, by decide⟩
  ⟨h, relay_transparent _ _ true [⟨101, 96⟩] openPolicy h _ _⟩

/-- Speech that the operator sends as 96, which it does not map, comes back as 101. -/
theorem eventsCall_confuses : Bijective eventsCall.payloadTypeMappings ∧
      (forward openPolicy eventsCall ⟨.operator, operatorAddr, speech 96⟩).1 =
        some (some ⟨.internal, internalAddr, speech 96⟩) ∧
      (forward openPolicy (forward openPolicy eventsCall ⟨.operator, operatorAddr, speech 96⟩).2
        ⟨.internal, internalAddr, speech 96⟩).1 =
        some (some ⟨.operator, operatorAddr, speech 101⟩) ∧ speech 101 ≠ speech 96 := by
  refine ⟨⟨by decide, by decide⟩, ?_⟩
  decide +kernel

/-- A stranger shows up on the operator's leg, but the operator has the last word before something
is sent to it. -/
def returned : List Ingested :=
  [⟨.operator, operatorAddr, speech 101⟩, ⟨.operator, strangerAddr, speech 101⟩,
    ⟨.operator, operatorAddr, speech 101⟩, ⟨.internal, internalAddr, speech 96⟩]

theorem noStranger_returned : NoStranger eventsCall.requireRtp .operator returned := by
  intro front x back hsplit hleg _
  have hspeech := (accepted_speech (by decide : (101 : UInt8) ≤ 0x7f) (by decide +kernel)
    eventsCall.requireRtp).2
  rcases front with _ | ⟨a, _ | ⟨b, _ | ⟨c, front⟩⟩⟩ <;>
    simp only [returned, nil_append, cons_append, cons.injEq] at hsplit
  · rw [← hsplit.1] at hleg
    cases hleg
  · rw [← hsplit.2.1] at hleg
    cases hleg
  · rw [← hsplit.2.2.1] at hleg
    cases hleg
  · obtain ⟨rfl, rfl, rfl, hlast⟩ := hsplit
    have hfront : front = [] := by
      have hlength : 1 = (front ++ x :: back).length := congrArg length hlast
      rw [length_append, length_cons] at hlength
      exact length_eq_zero_iff.mp (by omega)
    rw [hfront]
    simp [sources, hspeech]

theorem latched_iff_eventsCall : (eventsCall.leg .operator).latch = true ∧
      TrustsFirst eventsCall .operator returned ∧
      (ingest (run ingest eventsCall (returned.take 3)) ⟨.internal, internalAddr, speech 96⟩).1 =
        some (.ok ⟨.operator, operatorAddr, .rtp, some 101⟩) :=
  ⟨by decide, (latched_iff eventsCall .operator (by decide) returned).mpr noStranger_returned,
    by decide +kernel⟩

/-- A stranger's packet turns the stream to the stranger. -/
theorem eventsCall_redirected : (eventsCall.leg .operator).latch = true ∧
      ¬TrustsFirst eventsCall .operator [⟨.operator, operatorAddr, speech 101⟩,
        ⟨.operator, strangerAddr, speech 101⟩, ⟨.internal, internalAddr, speech 96⟩] := by
  refine ⟨by decide, fun h => ?_⟩
  have hdest := h [⟨.operator, operatorAddr, speech 101⟩, ⟨.operator, strangerAddr, speech 101⟩]
    ⟨.internal, internalAddr, speech 96⟩ [] rfl operatorAddr (by decide +kernel)
    ⟨.operator, strangerAddr, .rtp, some 101⟩ (by decide +kernel) rfl
  exact absurd hdest (by decide)

end SimMaster.Media
