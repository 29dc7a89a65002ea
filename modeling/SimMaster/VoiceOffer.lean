import SimMaster.VoiceCodecs

/-!
# Offers and answers are well formed

The numbers of an offer are pairwise different and fit their codecs (`codecOffer_numbered`), and a
policy that pins a number which no earlier policy pins gets it (`codecOffer_pinned`): numbers given
out by the loop itself are never pinned ones. An answer keeps the common codecs of the offer, in its
order (`answer_cases`).
-/

namespace SimMaster.Voice

open Rust List

/-- The payload type fits the codec: its static number, or a dynamic one. -/
def Fits (codec : AudioCodec) (payloadType : UInt8) : Prop :=
  codec.staticPayloadType = some payloadType ∨
    codec.staticPayloadType = none ∧ 96 ≤ payloadType ∧ payloadType ≤ 127

/-- The clock rate of the policy, if it has one, is the codec's. -/
def Clocked (policy : AudioCodecPolicy) : Prop :=
  policy.sampleRate.getD policy.codec.clockRate = policy.codec.clockRate

/-! ## Numbers -/

variable {payloadType : UInt8}

theorem dynamicTypes_bounds (h : payloadType ∈ dynamicTypes) :
    96 ≤ payloadType ∧ payloadType ≤ 127 := by
  have hall : ∀ payloadType ∈ dynamicTypes, 96 ≤ payloadType ∧ payloadType ≤ 127 := by
    decide +kernel
  exact hall payloadType h

variable {policy : AudioCodecPolicy}

/-- A number fits, and one that the policy does not pin is its codec's or not pinned by any. -/
theorem number_cases {reserved used : List UInt8}
    (h : policy.number reserved used = some payloadType) :
    Fits policy.codec payloadType ∧ (policy.payloadType = some payloadType ∨
      policy.codec.staticPayloadType = some payloadType ∨ payloadType ∉ reserved) := by
  rw [AudioCodecPolicy.number] at h
  cases hstatic : policy.codec.staticPayloadType with
  | some pt =>
    cases hpinned : policy.payloadType with
    | none =>
      rw [hstatic, hpinned] at h
      obtain rfl := Option.some.inj h
      exact ⟨Or.inl hstatic, Or.inr (Or.inl rfl)⟩
    | some configured =>
      rw [hstatic, hpinned] at h
      dsimp only at h
      split at h
      · obtain rfl := Option.some.inj h
        exact ⟨Or.inl hstatic, Or.inr (Or.inl rfl)⟩
      · cases h
  | none =>
    cases hpinned : policy.payloadType with
    | none =>
      rw [hstatic, hpinned] at h
      have hfree := List.find?_some h
      rw [Bool.and_eq_true, Bool.not_eq_true', Bool.not_eq_true'] at hfree
      refine ⟨Or.inr ⟨hstatic, dynamicTypes_bounds (List.mem_of_find?_eq_some h)⟩, ?_⟩
      refine Or.inr (Or.inr fun hmem => ?_)
      rw [contains_iff_mem.mpr hmem] at hfree
      exact absurd hfree.1 (by decide)
    | some pt =>
      rw [hstatic, hpinned] at h
      dsimp only at h
      split at h
      · next hbounds =>
        obtain rfl := Option.some.inj h
        exact ⟨Or.inr ⟨hstatic, hbounds⟩, Or.inl rfl⟩
      · cases h

/-- A pinned number that fits is the policy's. -/
theorem number_of_pinned
    (hpinned : policy.payloadType = some payloadType) (hfits : Fits policy.codec payloadType)
    (reserved used : List UInt8) : policy.number reserved used = some payloadType := by
  rw [AudioCodecPolicy.number, hpinned]
  rcases hfits with hstatic | ⟨hstatic, hbounds⟩
  · rw [hstatic]
    exact if_pos rfl
  · rw [hstatic]
    exact if_pos hbounds

/-- Codecs with the same static number are the same, and no static number is dynamic. -/
theorem codec_of_static {codec other : AudioCodec}
    (hother : other.staticPayloadType = some payloadType) (hfits : Fits codec payloadType) :
    other = codec ∧ codec.staticPayloadType = some payloadType := by
  rcases hfits with hstatic | ⟨hstatic, hlow, -⟩
  · refine ⟨?_, hstatic⟩
    cases other <;> cases hother <;> cases codec <;> cases hstatic <;> rfl
  · cases other <;> cases hother <;> exact absurd hlow (by decide)

/-! ## The loop -/

/-- What the loop does with a policy. -/
theorem codecOffer_cons (align : Bool) (reserved used : List UInt8) (policy : AudioCodecPolicy)
    (rest : List AudioCodecPolicy) :
    codecOffer align reserved used (policy :: rest) = codecOffer align reserved used rest ∨
      ∃ payloadType, Clocked policy ∧ policy.number reserved used = some payloadType ∧
        payloadType ∉ used ∧ codecOffer align reserved used (policy :: rest) =
          policy.entry align payloadType ::
            codecOffer align reserved (payloadType :: used) rest := by
  rw [codecOffer]
  split
  · exact Or.inl rfl
  · next hclock =>
    cases hnumber : policy.number reserved used with
    | none => exact Or.inl rfl
    | some payloadType =>
      dsimp only
      split
      · exact Or.inl rfl
      · next hunused =>
        refine Or.inr ⟨payloadType, not_not.mp hclock, rfl, fun hmem => ?_, rfl⟩
        exact hunused (contains_iff_mem.mpr hmem)

/-- **Numbers of an offer.** They are new, pairwise different and fit the codecs. -/
theorem codecOffer_numbered (align : Bool) (reserved used : List UInt8)
    (policies : List AudioCodecPolicy) :
    (∀ offered ∈ codecOffer align reserved used policies, offered.payloadType ∉ used) ∧
      ((codecOffer align reserved used policies).map SdpCodec.payloadType).Nodup ∧
      ∀ offered ∈ codecOffer align reserved used policies,
        Fits offered.codec offered.payloadType ∧ offered.clockRate = offered.codec.clockRate := by
  induction policies generalizing used with
  | nil =>
    exact ⟨fun _ h => absurd h not_mem_nil, nodup_nil,
      fun _ h => absurd h not_mem_nil⟩
  | cons policy rest ih =>
    rcases codecOffer_cons align reserved used policy rest with
      heq | ⟨payloadType, hclock, hnumber, hunused, heq⟩
    · rw [heq]
      exact ih used
    · obtain ⟨hnew, hnodup, hfits⟩ := ih (payloadType :: used)
      rw [heq]
      refine ⟨fun offered hmem => ?_, ?_, fun offered hmem => ?_⟩
      · rcases mem_cons.mp hmem with rfl | hmem
        · exact hunused
        · exact fun h => hnew offered hmem (mem_cons_of_mem _ h)
      · rw [map_cons, nodup_cons]
        refine ⟨fun hmem => ?_, hnodup⟩
        obtain ⟨offered, hoffered, hsame⟩ := mem_map.mp hmem
        exact hnew offered hoffered (hsame ▸ mem_cons_self)
      · rcases mem_cons.mp hmem with rfl | hmem
        · exact ⟨(number_cases hnumber).1, hclock⟩
        · exact hfits offered hmem

/-- **Pinned numbers.** A number that no earlier policy pins and no codec has yet goes to the policy
that pins it, or is static and an earlier policy has offered that very codec. -/
theorem codecOffer_pinned (align : Bool) {reserved used : List UInt8}
    {front back : List AudioCodecPolicy} {policy : AudioCodecPolicy} {payloadType : UInt8}
    (hreserved : payloadType ∈ reserved) (hpinned : policy.payloadType = some payloadType)
    (hfits : Fits policy.codec payloadType) (hclock : Clocked policy)
    (hfront : ∀ earlier ∈ front, earlier.payloadType ≠ some payloadType)
    (hunused : payloadType ∉ used) :
    policy.entry align payloadType ∈ codecOffer align reserved used (front ++ policy :: back) ∨
      policy.codec.staticPayloadType = some payloadType ∧
        ∃ earlier ∈ front, earlier.codec = policy.codec ∧ earlier.entry align payloadType ∈
            codecOffer align reserved used (front ++ policy :: back) := by
  induction front generalizing used with
  | nil =>
    left
    rw [nil_append, codecOffer, if_neg fun h => h hclock,
      number_of_pinned hpinned hfits reserved used]
    dsimp only
    rw [if_neg fun h => hunused (contains_iff_mem.mp h)]
    exact mem_cons_self
  | cons earlier front ih =>
    have hrest := fun used hunused =>
      @ih used (fun e he => hfront e (mem_cons_of_mem _ he)) hunused
    rw [cons_append]
    rcases codecOffer_cons align reserved used earlier (front ++ policy :: back) with
      heq | ⟨number, -, hnumber, -, heq⟩
    · rw [heq]
      exact (hrest used hunused).imp_right fun ⟨hstatic, e, he, h⟩ =>
        ⟨hstatic, e, mem_cons_of_mem _ he, h⟩
    · rw [heq]
      by_cases hsame : number = payloadType
      · -- the number can only be the codec's own
        subst hsame
        obtain ⟨-, hown | hstatic | hfree⟩ := number_cases hnumber
        · exact absurd hown (hfront earlier mem_cons_self)
        · obtain ⟨hcodec, hpolicy⟩ := codec_of_static hstatic hfits
          exact Or.inr ⟨hpolicy, earlier, mem_cons_self, hcodec, mem_cons_self⟩
        · exact absurd hreserved hfree
      · have hunused' : payloadType ∉ number :: used := fun hmem =>
          (mem_cons.mp hmem).elim (fun h => hsame h.symm) hunused
        exact (hrest (number :: used) hunused').imp (mem_cons_of_mem _)
          fun ⟨hstatic, e, he, hcodec, hentry⟩ =>
            ⟨hstatic, e, mem_cons_of_mem _ he, hcodec, mem_cons_of_mem _ hentry⟩

/-! ## Offers and answers -/

/-- The policy is there, pins a payload type that fits its codec, and no earlier policy pins it. -/
structure Pins (params : VoiceParams) (front : List AudioCodecPolicy) (policy : AudioCodecPolicy)
    (payloadType : UInt8) : Prop where
  among : ∃ back, params.policies = front ++ policy :: back
  pinned : policy.payloadType = some payloadType
  fits : Fits policy.codec payloadType
  first : ∀ earlier ∈ front, earlier.payloadType ≠ some payloadType

/-- The offer has the codec under the payload type. -/
def Offers (params : VoiceParams) (codec : AudioCodec) (payloadType : UInt8) : Prop :=
  ∃ offered ∈ buildCodecOfferWithParams params,
    offered.codec = codec ∧ offered.payloadType = payloadType

/-- The local list has the encoding of the codec. -/
def Common (params : VoiceParams) (offered : SdpCodec) : Prop :=
  ∃ own ∈ buildCodecOfferWithParams params, own.codec = offered.codec ∧
    own.clockRate = offered.clockRate ∧ own.channels.getD 1 = offered.channels.getD 1

instance (params : VoiceParams) (offered : SdpCodec) : Decidable (Common params offered) :=
  inferInstanceAs (Decidable (∃ own ∈ buildCodecOfferWithParams params, own.codec = offered.codec ∧
    own.clockRate = offered.clockRate ∧ own.channels.getD 1 = offered.channels.getD 1))

theorem offers_of_pins {params : VoiceParams} {front : List AudioCodecPolicy}
    (h : Pins params front policy payloadType) (hclock : Clocked policy) :
    Offers params policy.codec payloadType ∧
      (policy.entry params.amrOctetAlign payloadType ∈ buildCodecOfferWithParams params ∨
        policy.codec.staticPayloadType = some payloadType ∧
          ∃ earlier ∈ front, earlier.codec = policy.codec ∧
            earlier.entry params.amrOctetAlign payloadType ∈ buildCodecOfferWithParams params) := by
  obtain ⟨⟨back, hamong⟩, hpinned, hfits, hfirst⟩ := h
  have hreserved : payloadType ∈ params.policies.filterMap AudioCodecPolicy.payloadType := by
    rw [mem_filterMap, hamong]
    exact ⟨policy, mem_append_right _ mem_cons_self, hpinned⟩
  have hcases := @codecOffer_pinned params.amrOctetAlign _ [] front back policy payloadType
    hreserved hpinned hfits hclock hfirst not_mem_nil
  rw [← hamong] at hcases
  refine ⟨?_, hcases⟩
  rcases hcases with hentry | ⟨-, earlier, -, hcodec, hentry⟩
  · exact ⟨_, hentry, rfl, rfl⟩
  · exact ⟨_, hentry, hcodec, rfl⟩

theorem any_sameEncoding_iff (params : VoiceParams) (offered : SdpCodec) :
    ((buildCodecOfferWithParams params).any fun own => sameEncoding own offered) = true ↔
      Common params offered := by
  rw [any_eq_true, Common]
  refine exists_congr fun own => and_congr_right fun _ => ?_
  rw [sameEncoding, Bool.and_eq_true, Bool.and_eq_true, beq_iff_eq, beq_iff_eq, beq_iff_eq,
    and_assoc]

/-- **Answers.** The answer has the common codecs of the offer as the offer has them, and there is
none just when there is no common codec. -/
structure AnswersOffer (params : VoiceParams) (offer : SdpAudioDescription)
    (answer : Except VoiceRuntimeError SdpAudioDescription) : Prop where
  codecs : ∀ description, answer = .ok description → description.codecs ≠ [] ∧
    description.codecs.Sublist offer.codecs ∧
    description.codecs = offer.codecs.filter fun offered => Common params offered
  refuses : answer = .error .noCommonCodec ↔ ∀ offered ∈ offer.codecs, ¬Common params offered

theorem answersOffer (params : VoiceParams) (offer : SdpAudioDescription) (connectionAddr : Str)
    (addrType : SdpAddrType) (mediaPort : UInt16) (session : UInt64) : AnswersOffer params offer
      (buildSdpAnswerWithParams params offer connectionAddr addrType mediaPort session) := by
  have hfilter : (offer.codecs.filter fun offered =>
      (buildCodecOfferWithParams params).any fun own => sameEncoding own offered) =
        offer.codecs.filter fun offered => Common params offered :=
    filter_congr fun offered _ => by
      rw [Bool.eq_iff_iff, any_sameEncoding_iff, decide_eq_true_iff]
  rw [buildSdpAnswerWithParams]
  rw [hfilter]
  by_cases hempty : (offer.codecs.filter fun offered => Common params offered) = []
  · rw [hempty]
    refine ⟨fun description h => (by cases h), ⟨fun _ offered hmem hcommon => ?_, fun _ => rfl⟩⟩
    have hkept := filter_eq_nil_iff.mp hempty offered hmem
    exact hkept (decide_eq_true hcommon)
  · rw [if_neg fun h => hempty (isEmpty_iff.mp h)]
    refine ⟨fun description h => ?_, ⟨fun h => (by cases h), fun h => ?_⟩⟩
    · obtain rfl := Except.ok.inj h
      exact ⟨hempty, filter_sublist, rfl⟩
    · exact absurd (filter_eq_nil_iff.mpr fun offered hmem hcommon =>
        h offered hmem (of_decide_eq_true hcommon)) hempty

/-! ## The results -/

/-- What is asked of the offers and answers of a profile. -/
structure WellFormed (params : VoiceParams) : Prop where
  distinct : ((buildCodecOfferWithParams params).map SdpCodec.payloadType).Nodup
  fits : ∀ offered ∈ buildCodecOfferWithParams params, Fits offered.codec offered.payloadType
  pinned : ∀ front policy payloadType, Pins params front policy payloadType → Clocked policy →
    Offers params policy.codec payloadType ∧
      (policy.entry params.amrOctetAlign payloadType ∈ buildCodecOfferWithParams params ∨
        policy.codec.staticPayloadType = some payloadType ∧
          ∃ earlier ∈ front, earlier.codec = policy.codec ∧
            earlier.entry params.amrOctetAlign payloadType ∈ buildCodecOfferWithParams params)
  answers : ∀ offer connectionAddr addrType mediaPort session, AnswersOffer params offer
    (buildSdpAnswerWithParams params offer connectionAddr addrType mediaPort session)

/-- **Offers and answers.** For every profile they are well formed. -/
theorem codecs_wellFormed (params : VoiceParams) : WellFormed params :=
  have hnumbered := codecOffer_numbered params.amrOctetAlign
    (params.policies.filterMap AudioCodecPolicy.payloadType) [] params.policies
  ⟨hnumbered.2.1, fun offered hmem => (hnumbered.2.2 offered hmem).1,
    fun _ _ _ hpins hclock => offers_of_pins hpins hclock, answersOffer params⟩

/-- A policy that pins a number and asks for another clock rate. -/
def slowedProfile : VoiceParams :=
  ⟨[], [⟨.amrWb, some 96, some 8000, none⟩], 20, false⟩

/-- Its number goes to nobody. -/
theorem slowedProfile_loses :
    ¬∀ front policy payloadType, Pins slowedProfile front policy payloadType →
      Offers slowedProfile policy.codec payloadType := by
  intro h
  obtain ⟨offered, hmem, -⟩ := h [] ⟨.amrWb, some 96, some 8000, none⟩ 96
    ⟨⟨[], rfl⟩, rfl, Or.inr ⟨rfl, by decide⟩, fun _ hmem => absurd hmem not_mem_nil⟩
  have hnone : buildCodecOfferWithParams slowedProfile = [] := by decide
  rw [hnone] at hmem
  exact absurd hmem not_mem_nil

end SimMaster.Voice
