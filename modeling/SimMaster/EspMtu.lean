import SimMaster.Esp

/-!
# The length of a frame and the MTU

Before an inner packet is handed to ESP it is compared with the MTU of the path: a fixed estimate of
what comes on top is added to its length. The estimate has room for the outer headers over IPv4, a
vector of AES, the longest padding and a tag of sixteen octets. `mtuSound_iff` says for which plans
that is enough: the header of the outer protocol, the vector and the tag together have room for 52
octets.
-/

namespace SimMaster

open Rust Method List Except

/-! ## The state machine of a child SA -/

/-- `DataplanePhase`. -/
inductive DataplanePhase where
  | idle
  | childSaNegotiated
  | espSecretsReady
  | innerStackReady
  | forwarding
  | rekey
  | teardown
  | failed
  deriving DecidableEq

/-- `DataplanePhase::as_str`. -/
def DataplanePhase.asStr : DataplanePhase → String
  | .idle => "idle"
  | .childSaNegotiated => "child_sa_negotiated"
  | .espSecretsReady => "esp_secrets_ready"
  | .innerStackReady => "inner_stack_ready"
  | .forwarding => "forwarding"
  | .rekey => "rekey"
  | .teardown => "teardown"
  | .failed => "failed"

/-- The errors of `DataplaneStateError` that the state machine gives for an outbound packet. -/
inductive ChildSaError where
  | invalidPhase (expected actual : String)
  | innerQueueFull
  | frame (error : DataplaneStateError)
  deriving DecidableEq

/-- `SaDirectionState`. -/
structure SaDirectionState where
  saIdentifier : UInt32
  nextSequence : UInt64
  packets : ℕ
  bytes : ℕ
  deriving DecidableEq

/-- `MtuPlan`. -/
structure MtuPlan where
  outerMtu : UInt16
  estimatedOverheadBytes : UInt16
  innerMtu : UInt16
  ipv4HeaderBytes : UInt16
  udpHeaderBytes : UInt16
  espHeaderBytes : UInt16
  ivBytes : UInt16
  trailerBudgetBytes : UInt16
  integrityCheckBytes : UInt16
  deriving DecidableEq

/-- `MtuDecision`. -/
structure MtuDecision where
  decision : String
  accepted : Bool
  innerPacketBytes : ℕ
  estimatedOuterFrameBytes : ℕ
  outerMtu : UInt16
  deriving DecidableEq

/-- `EspPacketMetadata`. -/
structure EspPacketMetadata where
  saIdentifierPresent : Bool
  sequenceNumber : UInt64
  protectedBytes : ℕ
  outerFrameBytes : ℕ
  headerBytes : ℕ
  deriving DecidableEq

/-- `NattPacketSummary`. -/
structure NattPacketSummary where
  kind : String
  udpPort : UInt16
  wireBytes : ℕ
  esp : Option EspPacketMetadata
  deriving DecidableEq

/-- `InnerPacketMetadata`. -/
structure InnerPacketMetadata where
  packetId : ℕ
  direction : String
  ipVersion : String
  packetBytes : ℕ
  accepted : Bool
  dropReason : Option String
  deriving DecidableEq

/-- `EspFrameDecision`. -/
structure EspFrameDecision where
  direction : String
  decision : String
  accepted : Bool
  sequenceNumber : Option UInt64
  outerFrameBytes : ℕ
  natt : Option NattPacketSummary
  mtu : Option MtuDecision
  deriving DecidableEq

/-- `InnerGatewayState`. -/
structure InnerGatewayState where
  queueCapacity : ℕ
  nextPacketId : ℕ
  packetsToEsp : ℕ
  queue : List InnerPacketMetadata
  lastPacket : Option InnerPacketMetadata
  deriving DecidableEq

/-- What an outbound packet needs of `ChildSaStateMachine`. -/
structure ChildSaStateMachine where
  phase : DataplanePhase
  outboundSa : Option SaDirectionState
  mtu : MtuPlan
  mtuDrops : ℕ
  innerGateway : InnerGatewayState
  lastFrameDecision : Option EspFrameDecision
  deriving DecidableEq

/-- `u64::saturating_add`. -/
def saturatingU64 (a b : ℕ) : ℕ := min (a + b) (2 ^ 64 - 1)

/-- `build_mtu_plan`. -/
def buildMtuPlan (outerMtu : UInt16) : MtuPlan :=
  let estimatedOverheadBytes : UInt16 := 20 + 8 + 8 + 16 + 17 + 16
  { outerMtu, estimatedOverheadBytes
    innerMtu := if outerMtu < estimatedOverheadBytes then 0 else outerMtu - estimatedOverheadBytes
    ipv4HeaderBytes := 20
    udpHeaderBytes := 8
    espHeaderBytes := 8
    ivBytes := 16
    trailerBudgetBytes := 17
    integrityCheckBytes := 16 }

/-- `classify_ip_version`. -/
def classifyIpVersion (packet : Bytes) : String :=
  match packet.head?.map (fun byte : UInt8 => byte >>> 4) with
  | some 4 => "ipv4"
  | some 6 => "ipv6"
  | _ => "unknown"

/-- `protected_len_for_inner_packet`. -/
def protectedLenForInnerPacket (innerPacketBytes : ℕ) : ℕ := 16 + innerPacketBytes + 17 + 16

/-- `build_esp_frame_metadata`, with the metadata. -/
def espFrameMetadata (saIdentifier : UInt32) (sequenceNumber : UInt64) (protectedBytes : ℕ) :
    Except DataplaneStateError EspPacketMetadata := do
  buildEspFrameMetadata saIdentifier sequenceNumber
  return {
    saIdentifierPresent := true
    sequenceNumber, protectedBytes
    outerFrameBytes := espHeaderBytes + protectedBytes
    headerBytes := espHeaderBytes }

/-- `wrap_esp_metadata_for_nat_t`. -/
def wrapEspMetadataForNatT (esp : EspPacketMetadata) : NattPacketSummary where
  kind := "esp_in_udp_4500"
  udpPort := 4500
  wireBytes := esp.outerFrameBytes
  esp := some esp

namespace InnerGatewayState

/-- The record of a packet on its way out. -/
def outboundMetadata (self : InnerGatewayState) (packetBytes : Bytes) (dropReason : Option String) :
    InnerPacketMetadata where
  packetId := self.nextPacketId
  direction := "outbound"
  ipVersion := classifyIpVersion packetBytes
  packetBytes := packetBytes.length
  accepted := dropReason.isNone
  dropReason

/-- `enqueue_outbound`. -/
def enqueueOutbound (self : InnerGatewayState) (packetBytes : Bytes) :
    Except ChildSaError InnerGatewayState :=
  if self.queueCapacity ≤ self.queue.length then .error .innerQueueFull
  else
    let metadata := self.outboundMetadata packetBytes none
    .ok { self with
      nextPacketId := saturatingU64 self.nextPacketId 1
      packetsToEsp := saturatingU64 self.packetsToEsp 1
      queue := self.queue ++ [metadata]
      lastPacket := some metadata }

/-- `record_drop`. -/
def recordDrop (self : InnerGatewayState) (packetBytes : Bytes) (reason : String) :
    InnerGatewayState :=
  { self with
    nextPacketId := saturatingU64 self.nextPacketId 1
    lastPacket := some (self.outboundMetadata packetBytes (some reason)) }

end InnerGatewayState

namespace SaDirectionState

/-- `allocate_sequence`. -/
def allocateSequence (self : SaDirectionState) :
    Except DataplaneStateError (UInt64 × SaDirectionState) :=
  if 2 ^ 32 - 1 < self.nextSequence.toNat then .error .sequenceExhausted
  else .ok (self.nextSequence, { self with nextSequence := self.nextSequence + 1 })

/-- `record`. -/
def record (self : SaDirectionState) (bytes : ℕ) : SaDirectionState :=
  { self with
    packets := saturatingU64 self.packets 1
    bytes := saturatingU64 self.bytes bytes }

end SaDirectionState

namespace ChildSaStateMachine

/-- `evaluate_mtu`. -/
def evaluateMtu (self : ChildSaStateMachine) (innerPacketBytes : ℕ) : MtuDecision :=
  let estimatedOuterFrameBytes :=
    saturatingU64 innerPacketBytes self.mtu.estimatedOverheadBytes.toNat
  let accepted : Bool := estimatedOuterFrameBytes ≤ self.mtu.outerMtu.toNat
  { decision := if accepted then "accepted_within_mtu" else "mtu_exceeded"
    accepted, innerPacketBytes, estimatedOuterFrameBytes
    outerMtu := self.mtu.outerMtu }

/-- `require_ready_for_frames`. -/
def requireReadyForFrames (self : ChildSaStateMachine) : Except ChildSaError Unit :=
  if self.phase = .innerStackReady ∨ self.phase = .forwarding then .ok ()
  else .error (.invalidPhase "inner_stack_ready_or_forwarding" self.phase.asStr)

/-- The decision about a packet that is too long. -/
def mtuDrop (mtu : MtuDecision) : EspFrameDecision where
  direction := "outbound"
  decision := "mtu_drop"
  accepted := false
  sequenceNumber := none
  outerFrameBytes := mtu.estimatedOuterFrameBytes
  natt := none
  mtu := some mtu

/-- `record_outbound_wire_frame`. -/
def recordOutboundWireFrame (sequenceNumber : UInt64) (outerFrameBytes : ℕ)
    (natt : Option NattPacketSummary) (mtu : Option MtuDecision) :
    Method ChildSaStateMachine ChildSaError EspFrameDecision := do
  let decision : EspFrameDecision := {
    direction := "outbound"
    decision := "accepted_local_frame"
    accepted := true
    sequenceNumber := some sequenceNumber
    outerFrameBytes, natt, mtu }
  modify fun self => { self with
    outboundSa := self.outboundSa.map (·.record outerFrameBytes)
    phase := .forwarding
    lastFrameDecision := some decision }
  return decision

/-- The part of `record_outbound_inner_packet` for a packet that is let through. -/
def forwardInnerPacket (innerPacket : Bytes) (mtu : MtuDecision) :
    Method ChildSaStateMachine ChildSaError EspFrameDecision := do
  let innerGateway ← liftM ((← get).innerGateway.enqueueOutbound innerPacket)
  modify fun self => { self with innerGateway }
  let outbound ← liftM (okOr (ChildSaError.frame .invalidSaIdentifier) (← get).outboundSa)
  let (sequenceNumber, outbound) ← liftM (outbound.allocateSequence.mapError ChildSaError.frame)
  modify fun self => { self with outboundSa := some outbound }
  let espFrame ← liftM ((espFrameMetadata outbound.saIdentifier sequenceNumber
    (protectedLenForInnerPacket innerPacket.length)).mapError ChildSaError.frame)
  let natt := wrapEspMetadataForNatT espFrame
  recordOutboundWireFrame sequenceNumber natt.wireBytes (some natt) (some mtu)

/-- `record_outbound_inner_packet`. -/
def recordOutboundInnerPacket (innerPacket : Bytes) :
    Method ChildSaStateMachine ChildSaError EspFrameDecision := do
  let self ← get
  liftM self.requireReadyForFrames
  let mtu := self.evaluateMtu innerPacket.length
  if ¬mtu.accepted then
    let decision := mtuDrop mtu
    set { self with
      mtuDrops := saturatingU64 self.mtuDrops 1
      innerGateway := self.innerGateway.recordDrop innerPacket "mtu_exceeded"
      lastFrameDecision := some decision }
    return decision
  else forwardInnerPacket innerPacket mtu

end ChildSaStateMachine

/-! ## What is let through -/

theorem estimatedOverheadBytes_buildMtuPlan (outerMtu : UInt16) :
    (buildMtuPlan outerMtu).estimatedOverheadBytes.toNat = 85 := rfl

variable {self : ChildSaStateMachine} {outerMtu : UInt16}

/-- A packet is let through if it fits with the estimate on top. -/
theorem ChildSaStateMachine.evaluateMtu_accepted (hmtu : self.mtu = buildMtuPlan outerMtu) (n : ℕ) :
    (self.evaluateMtu n).accepted = true ↔ n + 85 ≤ outerMtu.toNat := by
  have hlt := outerMtu.toNat_lt
  have hoverhead := estimatedOverheadBytes_buildMtuPlan outerMtu
  rw [evaluateMtu, hmtu]
  rw [hoverhead, decide_eq_true_iff, saturatingU64]
  change min (n + 85) (2 ^ 64 - 1) ≤ outerMtu.toNat ↔ _
  omega

variable {innerPacket : Bytes}

/-- A packet that is accepted has passed the comparison. -/
theorem ChildSaStateMachine.accepted_of_record {self' : ChildSaStateMachine}
    {decision : EspFrameDecision}
    (h : call (recordOutboundInnerPacket innerPacket) self = (.ok decision, self'))
    (haccepted : decision.accepted = true) :
    (self.evaluateMtu innerPacket.length).accepted = true := by
  rw [recordOutboundInnerPacket, call_get_bind] at h
  obtain ⟨-, -, h⟩ := call_lift_bind_eq_ok h
  by_contra hrefused
  rw [if_pos hrefused] at h
  obtain ⟨hdecision, -⟩ := Prod.mk.inj h
  obtain rfl := ok.inj hdecision
  exact nomatch haccepted

/-- A machine that has sent nothing yet. -/
def ChildSaStateMachine.ready (outerMtu : UInt16) : ChildSaStateMachine where
  phase := .innerStackReady
  outboundSa := some ⟨1, 1, 0, 0⟩
  mtu := buildMtuPlan outerMtu
  mtuDrops := 0
  innerGateway := ⟨64, 1, 0, [], none⟩
  lastFrameDecision := none

/-- It accepts every packet that fits with the estimate on top. -/
theorem ChildSaStateMachine.ready_accepts (h : innerPacket.length + 85 ≤ outerMtu.toNat) :
    ∃ decision self', call (recordOutboundInnerPacket innerPacket) (ready outerMtu) =
      (.ok decision, self') ∧ decision.accepted = true := by
  have haccepted : ((ready outerMtu).evaluateMtu innerPacket.length).accepted = true :=
    (evaluateMtu_accepted rfl _).mpr h
  have hready : (ready outerMtu).requireReadyForFrames = .ok () := rfl
  rw [recordOutboundInnerPacket, call_get_bind, hready, call_lift_bind]
  rw [if_neg (not_not_intro haccepted)]
  exact ⟨_, _, rfl, rfl⟩

/-! ## What is put on the path -/

/-- The protocol of the outer packet. -/
inductive OuterFamily where
  | ipv4
  | ipv6
  deriving DecidableEq

/-- The octets of its header. -/
def OuterFamily.ipHeaderBytes : OuterFamily → ℕ
  | .ipv4 => 20
  | .ipv6 => 40

/-- `UDP_HEADER_BYTES`. -/
def udpHeaderBytes : ℕ := 8

variable {c : Ciphers} {secrets : ChildSaSecretPair}

/-- Under a supported cipher a frame has room for all of its parts. -/
theorem length_of_protect (hc : c.Lawful) {random : Option Iv} {saIdentifier : UInt32}
    {sequenceNumber : UInt64} {frame : Bytes} {nextHeader : UInt8} {icvIncludeIv : Bool}
    {summary : EspProtectedPacketSummary}
    (hsupported : secrets.Supported) {ivBytes icvLen : ℕ}
    (hiv : espIvBytes secrets.plan.encryption = .ok ivBytes)
    (hicv : espIntegrityLen secrets.plan.integrity = .ok icvLen)
    (h : protectInnerPacketForEspWithMode c random saIdentifier sequenceNumber
      innerPacket nextHeader
      secrets icvIncludeIv = .ok (frame, summary)) :
    frame.length = 8 + ivBytes + (innerPacket.length + espPadLen innerPacket.length 16 + 2) +
      icvLen := by
  have hblocks : aesBlock ∣ (espPlaintext innerPacket nextHeader).length := by
    rw [length_espPlaintext]
    exact (espPadLen_spec innerPacket.length).2
  obtain ⟨⟨⟩, -, h⟩ := bind_eq_ok.mp h
  obtain ⟨ivBytes', hiv', h⟩ := bind_eq_ok.mp h
  obtain ⟨iv, hivOctets, h⟩ := bind_eq_ok.mp h
  obtain ⟨ciphertext, hciphertext, h⟩ := bind_eq_ok.mp h
  obtain ⟨icv, htag, h⟩ := bind_eq_ok.mp h
  obtain ⟨rfl, -⟩ := Prod.mk.inj (ok.inj h)
  obtain rfl := ok.inj (hiv'.symm.trans hiv)
  have hrandom : secrets.plan.encryption ≠ "null" → random.isSome := by
    intro hne
    obtain ⟨haes, -⟩ := hsupported.1.resolve_left hne
    rw [haes] at hiv
    obtain rfl := ok.inj hiv
    cases random with
    | none => exact nomatch hivOctets
    | some random => rfl
  obtain ⟨ivBytes', iv', ciphertext', hiv', hivOctets', hivLen, hciphertext', hlen, -⟩ :=
    espCiphertext_espDecrypted hc hsupported.1 hrandom hblocks
  obtain rfl := ok.inj (hiv'.symm.trans hiv)
  obtain rfl := ok.inj (hivOctets'.symm.trans hivOctets)
  obtain rfl := ok.inj (hciphertext'.symm.trans hciphertext)
  obtain ⟨icvLen', hicv', htags⟩ := espIntegrityTag_ok hc hsupported.2
  obtain rfl := ok.inj (hicv'.symm.trans hicv)
  obtain ⟨tag, htag', htagLen⟩ := htags secrets.outboundIntegrity
    (if icvIncludeIv then espHeader saIdentifier sequenceNumber ++ (iv' ++ ciphertext')
      else espHeader saIdentifier sequenceNumber ++ ciphertext')
  obtain rfl := ok.inj (htag'.symm.trans htag)
  rw [length_append, length_append, length_append, htagLen, hlen, hivLen,
    length_espPlaintext, espHeader, length_append, length_be, length_be]
  omega

/-- Every packet can be protected under a supported plan. -/
theorem exists_protect (hc : c.Lawful) (hsupported : secrets.Supported) (innerPacket : Bytes) :
    ∃ random saIdentifier sequenceNumber nextHeader icvIncludeIv frame summary,
      protectInnerPacketForEspWithMode c random saIdentifier sequenceNumber innerPacket nextHeader
        secrets icvIncludeIv = .ok (frame, summary) := by
  obtain ⟨frame, summary, -, -, -, hprotect, -⟩ := esp_round_trip c hc
    (some ⟨replicate 16 0, rfl⟩) 1 (by decide) 1 ⟨by decide, by decide⟩ innerPacket 4 secrets
    hsupported (fun _ => rfl) true
  exact ⟨_, _, _, _, _, frame, summary, hprotect⟩

/-- With this plan and this outer protocol every packet that the machine accepts, whatever the MTU,
gives a frame that fits. -/
def MtuSound (c : Ciphers) (secrets : ChildSaSecretPair) (family : OuterFamily) : Prop :=
  ∀ (outerMtu : UInt16) (self self' : ChildSaStateMachine) (innerPacket : Bytes)
      (decision : EspFrameDecision), self.mtu = buildMtuPlan outerMtu →
    call (ChildSaStateMachine.recordOutboundInnerPacket innerPacket) self = (.ok decision, self') →
    decision.accepted = true →
    ∀ (random : Option Iv) (saIdentifier : UInt32) (sequenceNumber : UInt64) (nextHeader : UInt8)
        (icvIncludeIv : Bool) (frame : Bytes) (summary : EspProtectedPacketSummary),
      protectInnerPacketForEspWithMode c random saIdentifier sequenceNumber innerPacket nextHeader
        secrets icvIncludeIv = .ok (frame, summary) →
      family.ipHeaderBytes + udpHeaderBytes + frame.length ≤ outerMtu.toNat

/-- The padding and its trailer take at most seventeen octets. -/
theorem espPadLen_le (n : ℕ) : espPadLen n 16 + 2 ≤ 17 := by
  have := (espPadLen_spec n).1
  omega

/-- **The plans the estimate covers.** All accepted packets fit if and only if the header of the
outer protocol, the vector and the tag take at most 52 octets together. -/
theorem mtuSound_iff {c : Ciphers} (hc : c.Lawful) {secrets : ChildSaSecretPair}
    (hsupported : secrets.Supported) (family : OuterFamily) {ivBytes icvLen : ℕ}
    (hiv : espIvBytes secrets.plan.encryption = .ok ivBytes)
    (hicv : espIntegrityLen secrets.plan.integrity = .ok icvLen) :
    MtuSound c secrets family ↔ family.ipHeaderBytes + ivBytes + icvLen ≤ 52 := by
  constructor
  · intro h
    -- fifteen octets get the longest padding, and 100 octets are just enough for the estimate
    have hpacket : (replicate 15 (0 : UInt8)).length + 85 ≤ (100 : UInt16).toNat := by decide
    obtain ⟨random, saIdentifier, sequenceNumber, nextHeader, icvIncludeIv, frame, summary,
      hprotect⟩ := exists_protect hc hsupported (replicate 15 0)
    obtain ⟨decision, self', hrecord, haccepted⟩ := ChildSaStateMachine.ready_accepts hpacket
    have hfits := h 100 _ self' _ decision rfl hrecord haccepted random saIdentifier sequenceNumber
      nextHeader icvIncludeIv frame summary hprotect
    have hpad : espPadLen (replicate 15 (0 : UInt8)).length 16 = 15 := by decide
    rw [length_of_protect hc hsupported hiv hicv hprotect, hpad, length_replicate,
      udpHeaderBytes] at hfits
    change _ ≤ 100 at hfits
    omega
  · intro hroom outerMtu self self' innerPacket decision hmtu hrecord haccepted random saIdentifier
      sequenceNumber nextHeader icvIncludeIv frame summary hprotect
    have hlen := length_of_protect hc hsupported hiv hicv hprotect
    have hmax := espPadLen_le innerPacket.length
    have hfits := (ChildSaStateMachine.evaluateMtu_accepted hmtu _).mp
      (ChildSaStateMachine.accepted_of_record hrecord haccepted)
    rw [hlen, udpHeaderBytes]
    omega

/-- AES-128 with the tag given. -/
def aesSecrets (integrity : String) (integrityKeyBytes : ℕ) : ChildSaSecretPair :=
  ⟨replicate 16 0x11, replicate integrityKeyBytes 0x22, [], [],
    ⟨"aes_cbc", integrity, 16, integrityKeyBytes, 16 + integrityKeyBytes,
      2 * (16 + integrityKeyBytes)⟩⟩

/-- With a short tag everything that is accepted fits over IPv4. -/
theorem mtuSound_sha1 : MtuSound (.ofVectors [] []) (aesSecrets "hmac_sha1_96" 20) .ipv4 :=
  (mtuSound_iff (Ciphers.lawful_ofVectors [] []) ⟨.inr ⟨rfl, .inl rfl⟩, rfl⟩ .ipv4 rfl rfl).mpr
    (by decide)

/-- With the longest tag a packet of 1415 octets is accepted for a path of 1500, and takes 1508. -/
theorem mtu_exceeded_sha512 :
    (∃ (decision : EspFrameDecision) (self' : ChildSaStateMachine) (random : Option Iv)
        (saIdentifier : UInt32) (sequenceNumber : UInt64) (nextHeader : UInt8) (icvIncludeIv : Bool)
        (frame : Bytes) (summary : EspProtectedPacketSummary),
      call (ChildSaStateMachine.recordOutboundInnerPacket (replicate 1415 0x60))
        (ChildSaStateMachine.ready 1500) = (.ok decision, self') ∧ decision.accepted = true ∧
      protectInnerPacketForEspWithMode (.ofVectors [] []) random saIdentifier sequenceNumber
        (replicate 1415 0x60) nextHeader (aesSecrets "hmac_sha512_256" 64) icvIncludeIv =
        .ok (frame, summary) ∧
      OuterFamily.ipv4.ipHeaderBytes + udpHeaderBytes + frame.length = 1508) ∧
    ¬MtuSound (.ofVectors [] []) (aesSecrets "hmac_sha512_256" 64) .ipv4 := by
  have hlawful := Ciphers.lawful_ofVectors [] []
  have hsupported : (aesSecrets "hmac_sha512_256" 64).Supported := ⟨.inr ⟨rfl, .inl rfl⟩, rfl⟩
  have hpacket : (replicate 1415 (0x60 : UInt8)).length + 85 ≤ (1500 : UInt16).toNat := by
    rw [length_replicate]
    decide
  obtain ⟨random, saIdentifier, sequenceNumber, nextHeader, icvIncludeIv, frame, summary,
    hprotect⟩ :=
    exists_protect hlawful hsupported (replicate 1415 0x60)
  obtain ⟨decision, self', hrecord, haccepted⟩ := ChildSaStateMachine.ready_accepts hpacket
  have hframe : OuterFamily.ipv4.ipHeaderBytes + udpHeaderBytes + frame.length = 1508 := by
    rw [length_of_protect hlawful hsupported rfl rfl hprotect, length_replicate]
    rfl
  refine ⟨⟨decision, self', random, saIdentifier, sequenceNumber, nextHeader, icvIncludeIv, frame,
    summary, hrecord, haccepted, hprotect, hframe⟩, fun hsound => ?_⟩
  have hfits := hsound 1500 _ self' _ decision rfl hrecord haccepted random saIdentifier
    sequenceNumber nextHeader icvIncludeIv frame summary hprotect
  rw [hframe] at hfits
  exact absurd hfits (by decide)

end SimMaster
