import SimMaster.EapAka
import SimMaster.Machine

/-!
# The EAP-AKA peer over a run

The peer keeps its last response, and with it the keys of the last challenge it completed. It
answers the requests of one authentication in any order: a challenge, with what the card made of it,
a request for its identity, a notification. What it holds is what the ePDG client (`live.rs`) holds:
a failure of synchronisation takes the place of the response before it, where the entitlement client
(`services/e911/ts43.rs`) keeps the response with the keys apart. A notification is read but its
code is never checked: that of a challenge is. So the answer to a notification says nothing about
who sent it, and `notification_authenticated_iff` names the requests for which that matters.
-/

namespace SimMaster

namespace EapAka

open Rust Method Machine List Except

/-- A request to the peer, with what the caller adds to it. -/
inductive PeerCall where
  | challenge (packet identity : Bytes) (aka : UsimAkaApduResult)
  | identity (packet identity : Bytes)
  | notification (packet : Bytes)

/-- The response to a challenge: a failure of synchronisation if the card reported one. -/
def challengeResponse (c : Ciphers) (packet identity : Bytes) (aka : UsimAkaApduResult) :
    Except ProtocolError ResponsePacket := do
  let challenge ← parseChallenge packet
  match aka.auts with
  | some auts => buildSyncFailureResponse challenge auts
  | none => buildChallengeResponse c challenge identity aka

/-- The answer to a request, by the response the peer holds. -/
def answer (c : Ciphers) (held : ResponsePacket) : PeerCall → Except ProtocolError ResponsePacket
  | .challenge packet identity aka => challengeResponse c packet identity aka
  | .identity packet identity => held.identityResponse packet identity
  | .notification packet => held.notificationResponse c packet

/-- One request: the answer, if there is one, is held from then on. -/
def peerStep (c : Ciphers) (held : ResponsePacket) (call : PeerCall) :
    Except ProtocolError ResponsePacket × ResponsePacket :=
  (answer c held call, (answer c held call).toOption.getD held)

/-- Before its first response the peer has sent nothing and holds no keys. -/
def noResponse : ResponsePacket := ⟨[], none⟩

/-- The response held after the calls. -/
def heldAfter (c : Ciphers) (calls : List PeerCall) : ResponsePacket :=
  run (peerStep c) noResponse calls

/-! ## The keys of the completed challenge -/

/-- The offset of the code that authenticates a packet, behind its header, by its attributes. -/
def macOffsetFrom (offset : ℕ) : List (UInt8 × Bytes) → Option ℕ
  | [] => none
  | (attributeType, value) :: rest =>
    if attributeType = atMac ∧ value.length = 2 + macLen then some (offset + 4)
    else macOffsetFrom (offset + 2 + value.length) rest

/-- The notification carries a code that verifies under the keys. -/
def NotificationVerifies (c : Ciphers) (keys : KeyMaterial) (packet : Bytes) : Prop :=
  ∃ attributes, parseRequest subtypeNotification packet = .ok attributes ∧
    verifyMac c packet (macOffsetFrom headerLen attributes) keys = .ok ()

/-- The keys are those of a challenge among the calls, which carried a code that verified under
them.
-/
def CompletedChallenge (c : Ciphers) (calls : List PeerCall) (keys : KeyMaterial) : Prop :=
  ∃ packet identity aka challenge, .challenge packet identity aka ∈ calls ∧
    parseChallenge packet = .ok challenge ∧ keys = deriveKeyMaterial c identity aka.ik aka.ck ∧
    verifyChallengeMac c challenge keys = .ok ()

variable {c : Ciphers} {identity : Bytes} {response : ResponsePacket}

theorem buildChallengeResponse_ok {challenge : Challenge} {aka : UsimAkaApduResult}
    (h : buildChallengeResponse c challenge identity aka = .ok response) :
    response.keyMaterial = some (deriveKeyMaterial c identity aka.ik aka.ck) ∧
      verifyChallengeMac c challenge (deriveKeyMaterial c identity aka.ik aka.ck) = .ok () := by
  obtain ⟨-, h⟩ := guard_eq_ok h
  obtain ⟨-, h⟩ := guard_eq_ok h
  obtain ⟨⟨⟩, hverify, h⟩ := bind_eq_ok.mp h
  obtain ⟨res, -, h⟩ := bind_eq_ok.mp h
  obtain ⟨resultInd, -, h⟩ := bind_eq_ok.mp h
  obtain ⟨mac, -, h⟩ := bind_eq_ok.mp h
  obtain ⟨packet, -, h⟩ := bind_eq_ok.mp h
  obtain rfl := ok.inj h
  exact ⟨rfl, hverify⟩

theorem buildIdentityResponse_ok {request : IdentityRequest} {keyMaterial : Option KeyMaterial}
    (h : buildIdentityResponse request identity keyMaterial = .ok response) :
    response.keyMaterial = keyMaterial := by
  obtain ⟨-, h⟩ := guard_eq_ok h
  obtain ⟨attributes, -, h⟩ := bind_eq_ok.mp h
  obtain ⟨packet, -, h⟩ := bind_eq_ok.mp h
  obtain rfl := ok.inj h
  rfl

/-- A notification is always answered, and the keys stay. -/
theorem buildNotificationResponse_ok (c : Ciphers) (notification : Notification)
    (keys : KeyMaterial) :
    ∃ packet, buildNotificationResponse c notification keys = .ok ⟨packet, some keys⟩ := by
  rw [buildNotificationResponse]
  cases notification.macRequired with
  | false => exact ⟨_, rfl⟩
  | true => exact ⟨_, rfl⟩

variable {held : ResponsePacket} {packet : Bytes}

/-- What answering a notification takes, and leaves. -/
theorem notificationResponse_ok_iff :
    held.notificationResponse c packet = .ok response ↔ ∃ notification keys,
      parseNotification packet = .ok notification ∧ held.keyMaterial = some keys ∧
      buildNotificationResponse c notification keys = .ok response := by
  constructor
  · intro h
    obtain ⟨notification, hparse, h⟩ := bind_eq_ok.mp h
    obtain ⟨keys, hkeys, h⟩ := bind_eq_ok.mp h
    exact ⟨notification, keys, hparse, okOr_eq_ok.mp hkeys, h⟩
  · rintro ⟨notification, keys, hparse, hkeys, h⟩
    rw [ResponsePacket.notificationResponse, hparse, ok_bind, hkeys, okOr_some, ok_bind, h]

theorem notificationResponse_keyMaterial (h : held.notificationResponse c packet = .ok response) :
    response.keyMaterial = held.keyMaterial := by
  obtain ⟨notification, keys, -, hkeys, h⟩ := notificationResponse_ok_iff.mp h
  obtain ⟨packet', hbuild⟩ := buildNotificationResponse_ok c notification keys
  obtain rfl := ok.inj (hbuild.symm.trans h)
  exact hkeys.symm

variable {keys : KeyMaterial}

/-- An answer holds the keys of a challenge that was just completed, or those held before, or
none. -/
theorem answer_keyMaterial {call : PeerCall} (h : answer c held call = .ok response)
    (hkeys : response.keyMaterial = some keys) :
    held.keyMaterial = some keys ∨ CompletedChallenge c [call] keys := by
  cases call with
  | challenge packet identity aka =>
    obtain ⟨challenge, hparse, h⟩ := bind_eq_ok.mp h
    cases hauts : aka.auts with
    | some auts =>
      rw [hauts] at h
      obtain ⟨attributes, -, h⟩ := bind_eq_ok.mp h
      obtain ⟨packet, -, h⟩ := bind_eq_ok.mp h
      obtain rfl := ok.inj h
      exact nomatch hkeys
    | none =>
      rw [hauts] at h
      obtain ⟨hderived, hverify⟩ := buildChallengeResponse_ok h
      obtain rfl := Option.some.inj (hderived.symm.trans hkeys)
      exact .inr ⟨packet, identity, aka, challenge, mem_singleton_self _, hparse, rfl, hverify⟩
  | identity packet identity =>
    obtain ⟨request, -, h⟩ := bind_eq_ok.mp h
    exact .inl ((buildIdentityResponse_ok h).symm.trans hkeys)
  | notification packet => exact .inl ((notificationResponse_keyMaterial h).symm.trans hkeys)

theorem CompletedChallenge.mono {calls calls' : List PeerCall}
    (hsub : calls ⊆ calls') (h : CompletedChallenge c calls keys) :
    CompletedChallenge c calls' keys := by
  obtain ⟨packet, identity, aka, challenge, hmem, h⟩ := h
  exact ⟨packet, identity, aka, challenge, hsub hmem, h⟩

/-- **The keys held are those of a completed challenge**, after any run. -/
theorem heldAfter_completed (c : Ciphers) (calls : List PeerCall)
    (hkeys : (heldAfter c calls).keyMaterial = some keys) : CompletedChallenge c calls keys := by
  induction calls using reverseRecOn generalizing keys with
  | nil => exact nomatch hkeys
  | append_singleton calls call ih =>
    rw [heldAfter, run_concat, peerStep] at hkeys
    cases h : answer c (run (peerStep c) noResponse calls) call with
    | error e =>
      rw [h] at hkeys
      exact (ih hkeys).mono (subset_append_left _ _)
    | ok response =>
      rw [h] at hkeys
      rcases answer_keyMaterial h hkeys with hheld | hdone
      · exact (ih hheld).mono (subset_append_left _ _)
      · exact hdone.mono (subset_append_right _ _)

/-! ## Notifications -/

/-- If a notification after the challenge is answered, it carries a code that verifies under the
keys of the challenge that was completed. -/
def AuthenticatedAnswer (c : Ciphers) (calls : List PeerCall) (packet : Bytes) : Prop :=
  ∀ response notification, (heldAfter c calls).notificationResponse c packet = .ok response →
    parseNotification packet = .ok notification → notification.afterChallenge = true →
    ∃ keys, CompletedChallenge c calls keys ∧ (heldAfter c calls).keyMaterial = some keys ∧
      NotificationVerifies c keys packet

/-- The requests that do no harm: what is no notification, what comes when the peer has no keys,
what has the bit of a notification before the challenge, and what carries the right code. -/
def HarmlessRequest (c : Ciphers) (held : ResponsePacket) (packet : Bytes) : Prop :=
  ∀ notification keys, parseNotification packet = .ok notification →
    held.keyMaterial = some keys →
    notification.code &&& 0x4000 ≠ 0 ∨ NotificationVerifies c keys packet

theorem afterChallenge_iff {notification : Notification}
    (h : parseNotification packet = .ok notification) :
    notification.afterChallenge = true ↔ notification.code &&& 0x4000 = 0 := by
  obtain ⟨attributes, -, h⟩ := bind_eq_ok.mp h
  obtain ⟨⟨attributeType, value⟩, -, h⟩ := bind_eq_ok.mp h
  obtain ⟨-, h⟩ := guard_eq_ok h
  obtain rfl := ok.inj h
  exact decide_eq_true_iff

/-- The peer answers every notification once it has keys, so the answer is authenticated just when
the request does no harm. -/
theorem authenticatedAnswer_iff (c : Ciphers) (calls : List PeerCall) (packet : Bytes) :
    AuthenticatedAnswer c calls packet ↔ HarmlessRequest c (heldAfter c calls) packet := by
  constructor
  · intro h notification keys hparse hkeys
    by_cases hbit : notification.code &&& 0x4000 = 0
    · right
      obtain ⟨packet', hbuild⟩ := buildNotificationResponse_ok c notification keys
      obtain ⟨keys', -, hkeys', hverifies⟩ := h _ notification
        (notificationResponse_ok_iff.mpr ⟨notification, keys, hparse, hkeys, hbuild⟩) hparse
        ((afterChallenge_iff hparse).mpr hbit)
      obtain rfl := Option.some.inj (hkeys.symm.trans hkeys')
      exact hverifies
    · exact .inl hbit
  · intro h response notification hanswer hparse hafter
    obtain ⟨notification', keys, hparse', hkeys, -⟩ := notificationResponse_ok_iff.mp hanswer
    refine ⟨keys, heldAfter_completed c calls hkeys, hkeys, ?_⟩
    rcases h notification keys hparse hkeys with hbit | hverifies
    · exact absurd ((afterChallenge_iff hparse).mp hafter) hbit
    · exact hverifies

/-- **Notifications over a run.** All notifications of a run that are answered after the challenge
are authenticated if and only if all that come do no harm; and no answer to a notification changes
what the peer has authenticated. -/
theorem notification_authenticated_iff (c : Ciphers) (calls : List PeerCall) :
    ((∀ before packet after, calls = before ++ PeerCall.notification packet :: after →
        AuthenticatedAnswer c before packet) ↔
      ∀ before packet after, calls = before ++ PeerCall.notification packet :: after →
        HarmlessRequest c (heldAfter c before) packet) ∧
    ∀ packet response, (heldAfter c calls).notificationResponse c packet = .ok response →
      response.mskForIkeAuth = (heldAfter c calls).mskForIkeAuth := by
  refine ⟨⟨fun h before packet after hcalls => ?_, fun h before packet after hcalls => ?_⟩,
    fun packet response h => ?_⟩
  · exact (authenticatedAnswer_iff c before packet).mp (h before packet after hcalls)
  · exact (authenticatedAnswer_iff c before packet).mpr (h before packet after hcalls)
  · rw [ResponsePacket.mskForIkeAuth, notificationResponse_keyMaterial h]
    rfl

/-- The key that authenticates after the challenge of the sample. -/
def sampleKAut : Bytes := [148, 79, 99, 241, 174, 47, 175, 187, 115, 3, 104, 88, 135, 102, 176, 71]

/-- A challenge with its code. -/
def sampleRequest (mac : Bytes) : Bytes :=
  [1, 7, 0, 68, 23, 1, 0, 0, 1, 5, 0, 0] ++ replicate 16 0x11 ++ [2, 5, 0, 0] ++
    replicate 16 0x22 ++ [11, 5, 0, 0] ++ mac

/-- The code of the challenge, as it was sent. -/
def sampleMac : Bytes :=
  [105, 32, 226, 199, 37, 145, 233, 63, 78, 113, 91, 134, 233, 215, 173, 204]

/-- SHA-1 of the identity and the keys of the card, and HMAC-SHA-1 of the packets of the sample. -/
def sampleDigests : Ciphers :=
  .ofVectors []
    [([], [48] ++ replicate 16 0x55 ++ replicate 16 0x44,
        [5, 71, 82, 211, 205, 155, 109, 17, 13, 195, 63, 154, 202, 219, 92, 162, 44, 102, 43, 232]),
      (sampleKAut, sampleRequest (replicate 16 0), sampleMac ++ [207, 175, 192, 114]),
      (sampleKAut, [2, 7, 0, 40, 23, 1, 0, 0, 3, 3, 0, 64] ++ replicate 8 0x33 ++ [11, 5] ++
          replicate 18 0,
        [4, 150, 205, 15, 25, 118, 14, 101, 17, 193, 40, 236, 73, 198, 212, 115, 161,
          119, 44, 225]),
      (sampleKAut, [2, 9, 0, 28, 23, 12, 0, 0, 11, 5] ++ replicate 18 0,
        [183, 66, 126, 195, 31, 59, 249, 38, 163, 21, 153, 46, 248, 166, 170, 15, 199,
          46, 139, 227])]

/-- The challenge with the answer of the card. -/
def sampleChallenge : PeerCall :=
  .challenge (sampleRequest sampleMac) [48]
    ⟨replicate 8 0x33, replicate 16 0x44, replicate 16 0x55, none⟩

/-- After the challenge the peer answers a notification that carries no code at all. -/
theorem notification_without_mac : sampleDigests.Lawful ∧
      ¬AuthenticatedAnswer sampleDigests [sampleChallenge]
      [1, 9, 0, 12, 23, 12, 0, 0, 12, 1, 0x80, 0] := by
  refine ⟨Ciphers.lawful_ofVectors _ _, fun h => ?_⟩
  have hkeys : (heldAfter sampleDigests [sampleChallenge]).keyMaterial.isSome = true := by
    decide +kernel
  obtain ⟨keys, hkeys⟩ := Option.isSome_iff_exists.mp hkeys
  have hparse : parseNotification [1, 9, 0, 12, 23, 12, 0, 0, 12, 1, 0x80, 0] =
      .ok ⟨9, 0x8000, true, true, true⟩ := by decide +kernel
  rcases (authenticatedAnswer_iff _ _ _).mp h _ keys hparse hkeys with hbit | hverifies
  · exact hbit (by decide)
  · obtain ⟨attributes, hattributes, hverify⟩ := hverifies
    have hread : parseRequest subtypeNotification [1, 9, 0, 12, 23, 12, 0, 0, 12, 1, 0x80, 0] =
        .ok [(12, [0x80, 0])] := by decide +kernel
    obtain rfl := Except.ok.inj (hread.symm.trans hattributes)
    exact nomatch hverify

end EapAka

end SimMaster
