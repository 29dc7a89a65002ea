import SimMaster.OutboundMoves

/-!
# Keepalive of an outbound flow

What a run of an outbound flow promises (`outbound_keepalive`): polls before the deadline are quiet,
a probe is sent a bounded number of times before the flow fails, an acknowledged lease that is
maintained has no gap in its proof, a refresh does not put off a probe, and a failed lease is never
taken up again. Each invariant follows from the list of what a call can do.
-/

namespace SimMaster

open Rust List Option Machine

/-! ## One call -/

namespace Keepalive

/-- A keepalive is only about a flow that has negotiated outbound, and a lease is let go of only
after it has been invalidated. -/
structure Sound (k : Keepalive) : Prop where
  negotiated : k.pending.isSome ∨ k.nextProbe.isSome →
    ∃ lease, k.lease = some lease ∧ lease.negotiated = true
  retired : ∀ lease ∈ k.retired, lease.failed = true

/-- The lease held has failed, or it is proven until the outstanding probe has timed out, until the
next one has, or, where none is due, until it expires. -/
def Covered (k : Keepalive) : Prop :=
  ∃ lease, k.lease = some lease ∧ (lease.failed = true ∨
    lease.healthy = true ∧ lease.negotiated = true ∧
      (∀ p ∈ k.pending, p.timeoutAt ≤ lease.healthyUntil) ∧
      (∀ next ∈ k.nextProbe, next + OutboundFlow.probeTimeout k.tcp ≤ lease.healthyUntil) ∧
      (k.pending = none → k.nextProbe = none → lease.expires ≤ lease.healthyUntil))

end Keepalive

/-- How often an outstanding probe may still be sent: never when its next deadline is the last. -/
def PendingProbe.left (p : PendingProbe) : ℕ :=
  if p.timeoutAt ≤ p.deadline then 0 else 7 - p.retransmits

namespace Moves

variable {k k' : Keepalive} {call : FlowCall} {packet : Option Bytes}

variable (h : Moves k call packet k')
include h

theorem sound (hk : k.Sound) : k'.Sound := by
  cases h with
  | unchanged => exact hk
  | failed =>
    refine ⟨fun hprobe => ?_, hk.retired⟩
    obtain ⟨lease, hlease, hneg⟩ := hk.negotiated hprobe
    exact ⟨lease.invalidate, by simp [hlease], hneg⟩
  | dropped =>
    refine ⟨by simp, fun lease hmem => ?_⟩
    rcases mem_append.mp hmem with hold | hnew
    · exact hk.retired lease hold
    · obtain ⟨held, -, rfl⟩ : ∃ held, k.lease = some held ∧ held.invalidate = lease := by
        simpa using hnew
      rfl
  | exempted => exact ⟨by simp, hk.retired⟩
  | refreshed => exact ⟨fun _ => ⟨_, rfl, rfl⟩, hk.retired⟩
  | unneeded => exact ⟨by simp, hk.retired⟩
  | started _ hnext => exact ⟨fun _ => hk.negotiated (.inr (by simp [hnext])), hk.retired⟩
  | resent hpending | spent hpending =>
    exact ⟨fun _ => hk.negotiated (.inl (by simp [hpending])), hk.retired⟩
  | acknowledged _ hpending next =>
    obtain ⟨lease, hlease, hneg⟩ := hk.negotiated (.inl hpending)
    exact ⟨fun _ => ⟨lease.acknowledge _, by rw [hlease]; rfl, hneg⟩, hk.retired⟩

/-- A failed lease stays failed as long as it is held. -/
theorem failed_of_failed {lease : FlowLease}
    (hlease : k.lease = some lease) (hfailed : lease.failed = true) (hheld : k'.lease.isSome) :
    ∃ lease', k'.lease = some lease' ∧ lease'.failed = true := by
  have hnot : ∀ {other : FlowLease}, ¬ Extends k other := by
    rintro other ⟨hlive, hother | ⟨hnone, -⟩⟩
    · obtain rfl := some.inj (hlease.symm.trans hother)
      exact absurd hfailed (by simp [hlive])
    · simp [hlease] at hnone
  cases h with
  | unchanged | started | resent | spent => exact ⟨lease, hlease, hfailed⟩
  | failed => exact ⟨lease.invalidate, by simp [hlease], rfl⟩
  | dropped => simp at hheld
  | exempted hext | refreshed hext | unneeded hext => exact absurd hext hnot
  | acknowledged _ _ next =>
    exact ⟨lease.acknowledge _, by rw [hlease]; rfl, hfailed⟩

/-- An outstanding probe keeps its packet and its timeout while it is outstanding, and is sent
again only before the timeout and only as often as is left. -/
theorem pending_of_pending {p : PendingProbe} (hp : k.pending = some p)
    (hdeadline : p.deadline ≤ p.timeoutAt) (hstill : k'.pending.isSome) :
    ∃ q, k'.pending = some q ∧ q.timeoutAt = p.timeoutAt ∧ q.packet = p.packet ∧
      q.deadline ≤ q.timeoutAt ∧ packet.toList.length + q.left ≤ p.left ∧
      ∀ sent ∈ packet, sent = p.packet ∧ ∃ now, call.now? = some now ∧ now < p.timeoutAt := by
  cases h with
  | unchanged | failed | refreshed =>
    exact ⟨p, hp, rfl, rfl, hdeadline, by simp, by simp⟩
  | dropped | exempted | unneeded | acknowledged => simp at hstill
  | started hnone => simp [hp] at hnone
  | resent hq hdue hin hleft hlast hle =>
    obtain rfl := some.inj (hq.symm.trans hp)
    refine ⟨_, rfl, rfl, rfl, hle, ?_, fun sent hsent => ?_⟩
    · have hopen : ¬ (_ : ℕ) ≤ _ := not_le.mpr (lt_of_le_of_lt hdue hin)
      simp only [PendingProbe.left, toList_some, length_singleton]
      split
      · omega
      · next hgap =>
        have : _ ≠ 7 := fun h7 => hgap (hlast h7).ge
        omega
    · exact ⟨(some.inj hsent).symm, _, rfl, hin⟩
  | spent hq =>
    obtain rfl := some.inj (hq.symm.trans hp)
    exact ⟨_, rfl, rfl, rfl, le_rfl, by simp [PendingProbe.left], by simp⟩

end Moves

/-! ## What the keepalive promises -/

namespace OutboundFlow

/-- At `now` no deadline has gone by without a poll, and no probe has timed out. -/
def OnTime (f : OutboundFlow) (now : Instant) : Prop :=
  (∀ deadline ∈ f.deadline, now ≤ deadline) ∧ ∀ p ∈ f.pending, now < p.timeoutAt

/-- The call finds the flow polled at every deadline and its probes answered, and leaves it with a
lease. -/
structure Punctual (f : OutboundFlow) (call : FlowCall) : Prop where
  onTime : ∀ now ∈ call.now?, f.OnTime now
  held : (f.step call).2.lease.isSome

/-- A punctual call that leaves the flow on its transport and its lease on outbound, and that, when
it ends the exemption of a path without NAT, leaves a whole probe timeout of proof. -/
structure Maintained (f : OutboundFlow) (call : FlowCall) : Prop extends f.Punctual call where
  sameTransport : (f.step call).2.tcp = f.tcp
  negotiated : ∀ lease ∈ (f.step call).2.lease, lease.negotiated = true
  resumed : ∀ now ∈ call.now?, f.deadline = none → (f.step call).2.deadline.isSome →
    ∀ lease ∈ f.lease, now + probeTimeout f.tcp ≤ lease.healthyUntil

/-- The first acknowledgement of a lease. -/
def Acknowledges (f : OutboundFlow) (call : FlowCall) : Prop :=
  (∀ lease ∈ f.lease, lease.healthy = false) ∧
    ∃ lease ∈ (f.step call).2.lease, lease.healthy = true

/-- The lease held has failed or expired, or it is proven. -/
def ProvenAt (f : OutboundFlow) (now : Instant) : Prop :=
  ∃ lease ∈ f.lease, lease.failed = true ∨ lease.expires ≤ now ∨ lease.proven now

instance (f : OutboundFlow) (now : Instant) : Decidable (f.OnTime now) :=
  inferInstanceAs (Decidable (_ ∧ _))

instance (f : OutboundFlow) (call : FlowCall) : Decidable (f.Punctual call) :=
  decidable_of_iff ((∀ now ∈ call.now?, f.OnTime now) ∧ (f.step call).2.lease.isSome)
    ⟨fun h => ⟨h.1, h.2⟩, fun h => ⟨h.onTime, h.held⟩⟩

instance (f : OutboundFlow) (call : FlowCall) : Decidable (f.Acknowledges call) :=
  inferInstanceAs (Decidable (_ ∧ _))

instance (f : OutboundFlow) (now : Instant) : Decidable (f.ProvenAt now) :=
  inferInstanceAs (Decidable (∃ lease ∈ f.lease, _))

/-- The packets a run hands out, each with the instant of its poll. -/
def sends (f : OutboundFlow) (calls : List FlowCall) : List (Instant × Bytes) :=
  (Machine.trace step f calls).filterMap fun (call, answer) =>
    answer.packet?.bind fun packet => call.now?.map fun now => (now, packet)

/-- A poll before the deadline sends nothing and changes nothing. -/
def QuietBeforeDeadline (f : OutboundFlow) : Prop :=
  ∀ now random, (∀ deadline ∈ f.deadline, now < deadline) →
    (f.poll now random).2 = f ∧ ∀ packet, (f.poll now random).1 ≠ .ok (some packet)

/-- While a probe is outstanding it is sent again at most seven times (never over TCP), before its
timeout, with the packet it started with; a poll after the timeout fails the flow. -/
def ProbeBounded (f : OutboundFlow) : Prop :=
  ∀ now random packet, f.pending = none → (f.poll now random).1 = .ok (some packet) →
    ∀ later,
      Machine.Along step (fun f call => (f.step call).2.pending.isSome) (f.poll now random).2
        later →
      ((f.poll now random).2.sends later).length ≤ (if f.tcp then 0 else 7) ∧
      (∀ sent ∈ (f.poll now random).2.sends later,
        sent.1 < now + probeTimeout f.tcp ∧ sent.2 = packet) ∧
      ∀ t r, now + probeTimeout f.tcp ≤ t →
        ∃ e lease, ((Machine.run step (f.poll now random).2 later).poll t r).1 = .error e ∧
          ((Machine.run step (f.poll now random).2 later).poll t r).2.lease = some lease ∧
          lease.failed = true

/-- From its first acknowledgement on, a lease is proven until it fails or expires, in every run of
maintained calls. -/
def StaysProven (f : OutboundFlow) : Prop :=
  ∀ call later, f.Acknowledges call → Machine.Along step Maintained (f.step call).2 later →
    ∀ now, (Machine.run step (f.step call).2 later).OnTime now →
      (Machine.run step (f.step call).2 later).ProvenAt now

/-- A refresh leaves the outstanding probe as it is, or takes away every probe: the lease was let go
of, is no longer on outbound, or is proven as long as it lives. -/
def RefreshKeepsProbe (f : OutboundFlow) : Prop :=
  ∀ response tcp defaultExpires now,
    (f.registered response tcp defaultExpires now).2.pending = f.pending ∨
    (f.registered response tcp defaultExpires now).2.deadline = none ∧
      ∀ lease ∈ (f.registered response tcp defaultExpires now).2.lease,
        lease.negotiated = false ∨ lease.healthyUntil = lease.expires

/-- A lease that has failed is neither live nor proven again, whether the flow still holds it or
not, and as long as it is held every poll answers with the error. -/
def FailedForGood (f : OutboundFlow) : Prop :=
  (∀ lease ∈ f.retired, ∀ now, lease.live now = false ∧ lease.proven now = false) ∧
  ∀ lease later, f.lease = some lease → lease.failed = true →
    Machine.Along step (fun f call => (f.step call).2.lease.isSome) f later →
    ∃ lease', (Machine.run step f later).lease = some lease' ∧
      ∀ now random, lease'.live now = false ∧ lease'.proven now = false ∧
        (Machine.run step f later).poll now random =
          (.error ⟨"ims_outbound_flow_failed"⟩, Machine.run step f later)

end OutboundFlow

namespace OutboundFlow

variable {f : OutboundFlow} {lease : FlowLease}

theorem poll_of_failed (hlease : f.lease = some lease)
    (hfailed : lease.failed = true) (now : Instant) (random : Option Bytes) :
    f.poll now random = (.error ⟨"ims_outbound_flow_failed"⟩, f) := by
  rw [poll.eq_def, if_pos (by simp [hlease, hfailed])]

theorem quietBeforeDeadline (f : OutboundFlow) : f.QuietBeforeDeadline := by
  intro now random hbefore
  rw [poll.eq_def]
  split
  case isTrue => exact ⟨rfl, by simp⟩
  case isFalse =>
  split
  case h_1 p hp =>
    rw [pollPending, if_pos (hbefore p.deadline (by simp [deadline, hp]))]
    exact ⟨rfl, by simp⟩
  case h_2 hp =>
    have hnext : f.nextProbe.all (now < ·) := by
      simpa [deadline, hp, Option.all_eq_true] using hbefore
    rw [if_pos hnext]
    exact ⟨rfl, by simp⟩

theorem failedForGood (h : f.keepalive.Sound) : f.FailedForGood := by
  refine ⟨fun lease hmem now => FlowLease.dead_of_failed (h.retired lease hmem) now, ?_⟩
  intro lease later hlease hfailed hheld
  obtain ⟨lease', hlease', hfailed'⟩ :
      ∃ lease', (run step f later).lease = some lease' ∧ lease'.failed = true := by
    refine @run_invariant_along _ _ _ step _
      (fun g => ∃ lease', g.lease = some lease' ∧ lease'.failed = true) _
      ⟨lease, hlease, hfailed⟩ ?_ _ hheld
    rintro g call hcall ⟨other, hother, hdead⟩
    exact (g.moves_step call).failed_of_failed hother hdead hcall
  refine ⟨lease', hlease', fun now random => ?_⟩
  obtain ⟨hlive, hproven⟩ := FlowLease.dead_of_failed hfailed' now
  exact ⟨hlive, hproven, poll_of_failed hlease' hfailed' now random⟩

theorem refreshKeepsProbe (f : OutboundFlow) : f.RefreshKeepsProbe := by
  intro response tcp defaultExpires now
  have h := f.moves_registered response tcp defaultExpires now
  change (f.registered response tcp defaultExpires now).2.keepalive.pending = f.keepalive.pending ∨
    (f.registered response tcp defaultExpires now).2.keepalive.deadline = none ∧
      ∀ lease ∈ (f.registered response tcp defaultExpires now).2.keepalive.lease,
        lease.negotiated = false ∨ lease.healthyUntil = lease.expires
  generalize (f.registered response tcp defaultExpires now).2.keepalive = k' at h ⊢
  cases h with
  | unchanged | failed | refreshed => exact .inl rfl
  | dropped => exact .inr ⟨rfl, by simp⟩
  | exempted => exact .inr ⟨rfl, fun lease hlease => .inr (by cases hlease; rfl)⟩
  | unneeded => exact .inr ⟨rfl, fun lease hlease => .inl (by cases hlease; rfl)⟩
  | acknowledged hcall => cases hcall

theorem sound_run (h : f.keepalive.Sound) (calls : List FlowCall) :
    (run step f calls).keepalive.Sound :=
  @run_invariant _ _ _ step (fun g => g.keepalive.Sound) _ h
    (fun g call hg => (g.moves_step call).sound hg) calls

theorem sends_cons (f : OutboundFlow) (call : FlowCall) (later : List FlowCall) :
    f.sends (call :: later) =
      ((f.step call).1.packet?.bind fun packet => call.now?.map fun now => (now, packet)).toList ++
        (f.step call).2.sends later := by
  rw [sends, trace_cons, filterMap_cons]
  dsimp only
  split
  case h_1 hnone => rw [hnone]; rfl
  case h_2 sent hsome => rw [hsome]; rfl

/-- What a run sends of the probe that is outstanding all along. -/
theorem sends_of_pending {p : PendingProbe} (hp : f.pending = some p)
    (hdeadline : p.deadline ≤ p.timeoutAt) {later : List FlowCall}
    (hlater : Machine.Along step (fun f call => (f.step call).2.pending.isSome) f later) :
    (f.sends later).length ≤ p.left ∧
      (∀ sent ∈ f.sends later, sent.1 < p.timeoutAt ∧ sent.2 = p.packet) ∧
      ∃ q, (run step f later).pending = some q ∧ q.timeoutAt = p.timeoutAt ∧
        q.deadline ≤ q.timeoutAt := by
  induction later generalizing f p with
  | nil => exact ⟨Nat.zero_le _, by simp [sends], p, hp, rfl, hdeadline⟩
  | cons call later ih =>
    obtain ⟨q, hq, htimeout, hpacket, hqdeadline, hleft, hsent⟩ :=
      (f.moves_step call).pending_of_pending hp hdeadline hlater.1
    obtain ⟨hlen, hsends, last, hlast, hlastTimeout, hlastDeadline⟩ := ih hq hqdeadline hlater.2
    rw [sends_cons]
    refine ⟨?_, ?_, last, hlast, hlastTimeout.trans htimeout, hlastDeadline⟩
    · have hone : ((f.step call).1.packet?.bind fun packet =>
          call.now?.map fun now => (now, packet)).toList.length ≤
            (f.step call).1.packet?.toList.length := by
        cases (f.step call).1.packet? <;> cases call.now? <;> simp
      rw [length_append]
      omega
    · intro sent hmem
      rcases mem_append.mp hmem with hnow | hrest
      · obtain ⟨packet, hpkt, now, hinstant, rfl⟩ :
            ∃ packet, (f.step call).1.packet? = some packet ∧
              ∃ now, call.now? = some now ∧ (now, packet) = sent := by
          simpa [bind_eq_some_iff] using hnow
        obtain ⟨hpacket, now', hinstant', hlt⟩ := hsent packet hpkt
        obtain rfl := some.inj (hinstant.symm.trans hinstant')
        exact ⟨hlt, hpacket⟩
      · obtain ⟨hlt, hsame⟩ := hsends sent hrest
        exact ⟨htimeout ▸ hlt, hsame.trans hpacket⟩

variable {now : Instant}

/-- After the timeout of the outstanding probe a poll fails the flow. -/
theorem poll_of_timeout {p : PendingProbe} (hp : f.pending = some p)
    (hlease : f.lease = some lease) (hdeadline : p.deadline ≤ p.timeoutAt)
    (hnow : p.timeoutAt ≤ now) (random : Option Bytes) :
    ∃ e lease', (f.poll now random).1 = .error e ∧ (f.poll now random).2.lease = some lease' ∧
      lease'.failed = true := by
  cases hfailed : lease.failed with
  | true => exact ⟨_, lease, by rw [poll_of_failed hlease hfailed],
      by rw [poll_of_failed hlease hfailed]; exact hlease, hfailed⟩
  | false =>
    have hpoll : f.poll now random = f.pollPending p now := by
      rw [poll.eq_def, if_neg (by simp [hlease, hfailed])]
      simp only [hp]
    have hfail : f.pollPending p now =
        (.error (f.fail "ims_outbound_keepalive_timeout").1,
          (f.fail "ims_outbound_keepalive_timeout").2) := by
      rw [pollPending, if_neg (not_lt.mpr (hdeadline.trans hnow)), if_pos (by simp [hnow])]
    refine ⟨_, lease.invalidate, by rw [hpoll, hfail], ?_, rfl⟩
    have := congrArg Keepalive.lease (f.keepalive_fail "ims_outbound_keepalive_timeout")
    rw [hpoll, hfail]
    simpa [keepalive, hlease] using this

/-- The probe a poll starts when none is outstanding. -/
theorem pending_of_poll (hnone : f.pending = none) {random : Option Bytes}
    {packet : Bytes} (hpoll : (f.poll now random).1 = .ok (some packet)) :
    ∃ p, (f.poll now random).2.pending = some p ∧ p.packet = packet ∧ p.retransmits = 0 ∧
      p.timeoutAt = now + probeTimeout f.tcp ∧
      p.deadline = now + (if f.tcp then PONG_TIMEOUT else STUN_RTO) := by
  rw [poll.eq_def] at hpoll ⊢
  split at hpoll
  case isTrue => cases hpoll
  case isFalse hlive =>
  rw [if_neg hlive]
  simp only [hnone] at hpoll ⊢
  split at hpoll
  case isTrue => cases hpoll
  case isFalse hdue =>
  rw [if_neg hdue]
  cases random with
  | none => cases hpoll
  | some id => exact ⟨_, rfl, some.inj (Except.ok.inj hpoll), rfl, rfl, rfl⟩

theorem probeBounded (h : f.keepalive.Sound) : f.ProbeBounded := by
  intro now random packet hnone hpoll later hlater
  obtain ⟨p, hp, hpacket, hfirst, htimeout, hdeadline⟩ := pending_of_poll hnone hpoll
  have hle : p.deadline ≤ p.timeoutAt := by
    rw [hdeadline, htimeout]
    cases f.tcp <;> simp [probeTimeout]; decide
  obtain ⟨hlen, hsends, q, hq, hqtimeout, hqdeadline⟩ := sends_of_pending hp hle hlater
  refine ⟨hlen.trans ?_, fun sent hsent => ?_, fun t r ht => ?_⟩
  · rw [PendingProbe.left, hfirst, hdeadline, htimeout]
    cases f.tcp <;> simp [probeTimeout]
    split <;> simp
  · obtain ⟨hlt, hsame⟩ := hsends sent hsent
    exact ⟨htimeout ▸ hlt, hsame.trans hpacket⟩
  · have hsound : (run step (f.poll now random).2 later).keepalive.Sound :=
      sound_run ((f.moves_poll now random).sound h) later
    obtain ⟨lease, hlease, -⟩ := hsound.negotiated (.inl (isSome_iff_exists.mpr ⟨q, hq⟩))
    exact poll_of_timeout hq hlease hqdeadline (by rw [hqtimeout, htimeout]; exact ht) r

/-! ### Proof without a gap -/

/-- The first acknowledgement covers the lease. -/
theorem covered_of_acknowledges (h : f.keepalive.Sound) {call : FlowCall}
    (hack : f.Acknowledges call) : (f.step call).2.keepalive.Covered := by
  obtain ⟨hbefore, lease, hlease, hhealthy⟩ := hack
  have hmoves := f.moves_step call
  change ∀ lease ∈ f.keepalive.lease, lease.healthy = false at hbefore
  change (f.step call).2.keepalive.lease = some lease at hlease
  have hunhealthy : ∀ {other : FlowLease}, Extends f.keepalive other → other.healthy = false := by
    rintro other ⟨-, hheld | ⟨-, hnew⟩⟩
    · exact hbefore other hheld
    · exact hnew
  generalize f.keepalive = k at *
  generalize (f.step call).2.keepalive = k' at *
  generalize (f.step call).1.packet? = sent at *
  cases hmoves with
  | unchanged | started | resent | spent =>
    exact absurd hhealthy (by simp [hbefore lease hlease])
  | failed =>
    obtain ⟨held, -, rfl⟩ := map_eq_some_iff.mp hlease
    cases hhealthy
  | dropped => cases hlease
  | exempted => exact ⟨_, rfl, .inr ⟨rfl, rfl, by simp, by simp, fun _ _ => le_rfl⟩⟩
  | refreshed hext | unneeded hext =>
    cases hlease
    exact absurd hhealthy (by simp [hunhealthy hext])
  | acknowledged _ hpending next =>
    obtain ⟨held, hheld, hneg⟩ := h.negotiated (.inl hpending)
    exact ⟨held.acknowledge _, by rw [hheld]; rfl,
      .inr ⟨rfl, hneg, by simp, by simp [FlowLease.acknowledge], by simp⟩⟩

/-- A maintained call leaves a covered lease covered. -/
theorem covered_step {call : FlowCall} (hcall : f.Maintained call) (h : f.keepalive.Covered) :
    (f.step call).2.keepalive.Covered := by
  obtain ⟨⟨honTime, hheld⟩, htcp, hnegotiated, hresumed⟩ := hcall
  obtain ⟨lease, hlease, hfailed | ⟨hhealthy, hneg, hpendingCovered, hnextCovered, hidle⟩⟩ := h
  · obtain ⟨lease', hlease', hfailed'⟩ :=
      (f.moves_step call).failed_of_failed hlease hfailed hheld
    exact ⟨lease', hlease', .inl hfailed'⟩
  have hmoves := f.moves_step call
  change (f.step call).2.keepalive.lease.isSome at hheld
  change (f.step call).2.keepalive.tcp = f.keepalive.tcp at htcp
  change ∀ lease ∈ (f.step call).2.keepalive.lease, lease.negotiated = true at hnegotiated
  change ∀ now ∈ call.now?, f.keepalive.deadline = none →
    (f.step call).2.keepalive.deadline.isSome → ∀ lease ∈ f.keepalive.lease,
      now + probeTimeout f.keepalive.tcp ≤ lease.healthyUntil at hresumed
  have honTime : ∀ now ∈ call.now?, ∀ deadline ∈ f.keepalive.deadline, now ≤ deadline :=
    fun now hnow => (honTime now hnow).1
  have hextends : ∀ {other : FlowLease}, Extends f.keepalive other → other = lease := by
    rintro other ⟨-, hsame | ⟨hnone, -⟩⟩
    · exact some.inj (hsame.symm.trans hlease)
    · simp [hlease] at hnone
  generalize f.keepalive = k at *
  generalize (f.step call).2.keepalive = k' at *
  generalize (f.step call).1.packet? = sent at *
  cases hmoves with
  | unchanged => exact ⟨lease, hlease, .inr ⟨hhealthy, hneg, hpendingCovered, hnextCovered, hidle⟩⟩
  | failed => exact ⟨lease.invalidate, by simp [hlease], .inl rfl⟩
  | dropped => simp at hheld
  | exempted => exact ⟨_, rfl, .inr ⟨rfl, rfl, by simp, by simp, fun _ _ => le_rfl⟩⟩
  | @refreshed _ _ _ now _ hext _ _ _ hnext =>
    obtain rfl := hextends hext
    refine ⟨_, rfl, .inr ⟨hhealthy, rfl, hpendingCovered, ?_, ?_⟩⟩
    · intro next hmem
      rw [htcp]
      rcases hnext with ⟨hn, hp, rfl⟩ | ⟨-, rfl⟩
      · have hresume := hresumed now rfl (by simp [Keepalive.deadline, hn, hp])
          (by simp [Keepalive.deadline, hp]) _ hlease
        exact some.inj hmem ▸ hresume
      · exact hnextCovered next hmem
    · intro hp hn
      rcases hnext with ⟨-, -, rfl⟩ | ⟨hsome, rfl⟩
      · cases hn
      · simp_all
  | unneeded => exact absurd (hnegotiated _ rfl) (by simp)
  | @started now next _ _ hp hn hdue =>
    refine ⟨lease, hlease, .inr ⟨hhealthy, hneg, ?_, by simp, by simp⟩⟩
    intro p hmem
    obtain rfl := some.inj hmem
    -- polled at its deadline, the probe starts where the lease expects it
    have hle : now ≤ next := honTime now rfl next (by simp [Keepalive.deadline, hp, hn])
    exact (Nat.add_le_add_right hle _).trans (hnextCovered next hn)
  | resent hp | spent hp =>
    refine ⟨lease, hlease, .inr ⟨hhealthy, hneg, ?_, hnextCovered, by simp⟩⟩
    intro q hmem
    have hbound := hpendingCovered _ hp
    obtain rfl := some.inj hmem
    exact hbound
  | acknowledged _ _ next =>
    exact ⟨lease.acknowledge _, by rw [hlease]; rfl,
      .inr ⟨rfl, hneg, by simp, by simp [FlowLease.acknowledge], by simp⟩⟩

/-- A covered lease is proven whenever the flow is on time. -/
theorem provenAt_of_covered (h : f.keepalive.Covered) (honTime : f.OnTime now) :
    f.ProvenAt now := by
  obtain ⟨lease, hlease, hfailed | ⟨hhealthy, hneg, hpending, hnext, hidle⟩⟩ := h
  · exact ⟨lease, hlease, .inl hfailed⟩
  refine ⟨lease, hlease, ?_⟩
  by_cases hexpired : lease.expires ≤ now
  · exact .inr (.inl hexpired)
  by_cases hfailed : lease.failed = true
  · exact .inl hfailed
  have huntil : now < lease.healthyUntil := by
    cases hp : f.pending with
    | some p => exact lt_of_lt_of_le (honTime.2 p hp) (hpending p hp)
    | none =>
      cases hn : f.nextProbe with
      | some next =>
        have hle : now ≤ next := honTime.1 next (by simp [deadline, hp, hn])
        have htimeout : 0 < probeTimeout f.tcp := by cases f.tcp <;> decide
        exact lt_of_lt_of_le (Nat.lt_add_of_pos_right htimeout)
          ((Nat.add_le_add_right hle _).trans (hnext next hn))
      | none => exact lt_of_lt_of_le (not_le.mp hexpired) (hidle hp hn)
  exact .inr (.inr (by
    simp [FlowLease.proven, hneg, hhealthy, hfailed, not_le.mp hexpired, huntil]))

theorem staysProven (h : f.keepalive.Sound) : f.StaysProven := by
  intro call later hack hlater now honTime
  refine provenAt_of_covered ?_ honTime
  exact @run_invariant_along _ _ _ step _ (fun g => g.keepalive.Covered) _
    (covered_of_acknowledges h hack) (fun g call hcall => covered_step hcall) _ hlater

/-- A punctual run after an acknowledgement that leaves the lease unproven, though it has neither
failed nor expired. -/
def Gap (f : OutboundFlow) (call : FlowCall) (later : List FlowCall) (now : Instant) : Prop :=
  f.Acknowledges call ∧ Machine.Along step Punctual (f.step call).2 later ∧
    (Machine.run step (f.step call).2 later).OnTime now ∧
    ¬(Machine.run step (f.step call).2 later).ProvenAt now

instance (f : OutboundFlow) (call : FlowCall) (later : List FlowCall) (now : Instant) :
    Decidable (f.Gap call later now) :=
  inferInstanceAs (Decidable (_ ∧ _ ∧ _ ∧ ¬_))

/-- A REGISTER that offers outbound. -/
def sampleRequest : Bytes :=
  asBytes ("REGISTER sip:a SIP/2.0\r\ni: c\r\nCSeq: 1 REGISTER\r\n" ++
    "Supported: outbound\r\n\r\n").toList

/-- A success with the extra header lines. -/
def sampleAnswer (extra : String) : Bytes :=
  asBytes ("SIP/2.0 200 OK\r\ni: c\r\nCSeq: 1 REGISTER\r\n" ++
    "m: <sip:a>;+sip.instance=\"<i>\";reg-id=2;expires=600\r\n" ++ extra ++ "\r\n").toList

/-- The flow that has sent the sample request, on a path without NAT. -/
def sampleFlow : OutboundFlow :=
  { new (some ⟨.wlan, ['i']⟩) true with lastRequest := some sampleRequest }

/-- A success of the registrar `at` seconds after the origin of the clock. -/
def sampleRegistered (extra : String) (tcp : Bool) (seconds : ℕ) : FlowCall :=
  .registered (sampleAnswer extra) tcp 3600 (Duration.fromSecs seconds)

/-- The option and the timer of an answer that takes up outbound and asks for keepalives. -/
def sampleTimer : String := "Require: outbound\r\nFlow-Timer: 30\r\n"

/-- The answer to the probe with transaction zero. -/
def sampleStun : Bytes :=
  [1, 1, 0, 12] ++ COOKIE ++ replicate 12 0 ++ [0, 0x20, 0, 8, 0, 1, 0, 0, 0, 0, 0, 0]

end OutboundFlow

end SimMaster
