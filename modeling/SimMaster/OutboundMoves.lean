import SimMaster.OutboundFlow

/-!
# What a call does to an outbound flow

Every call moves the part of a flow that the keepalive is about, the lease, the outstanding probe
and the next one, in one of a few ways. `Moves` lists them and `moves_step` says that there are no
others.
-/

namespace SimMaster

open Rust

/-- The part of a flow that the keepalive is about. -/
structure Keepalive where
  lease : Option FlowLease
  tcp : Bool
  nextProbe : Option Instant
  pending : Option PendingProbe
  retired : List FlowLease

def Keepalive.deadline (k : Keepalive) : Option Instant :=
  (k.pending.map PendingProbe.deadline).or k.nextProbe

def OutboundFlow.keepalive (f : OutboundFlow) : Keepalive :=
  { lease := f.lease, tcp := f.tcp, nextProbe := f.nextProbe, pending := f.pending,
    retired := f.retired }

/-- A call that may bring the answer to a probe. -/
def FlowCall.isAnswer : FlowCall → Bool
  | .pong _ _ | .receiveStun _ _ _ => true
  | _ => false

/-- The packet an answer hands out for sending. -/
def FlowAnswer.packet? : FlowAnswer → Option Bytes
  | .sent packet => packet
  | _ => none

/-- A lease that a REGISTER may extend: the one held, unless it has failed, or a new one. -/
structure Extends (k : Keepalive) (lease : FlowLease) : Prop where
  live : lease.failed = false
  held : k.lease = some lease ∨ k.lease = none ∧ lease.healthy = false

/-- What a call can do: `Moves k call packet k'` when it takes `k` to `k'` and hands out
`packet`. -/
inductive Moves (k : Keepalive) : FlowCall → Option Bytes → Keepalive → Prop where
  | unchanged (call : FlowCall) : Moves k call none k
  | failed (call : FlowCall) :
      Moves k call none { k with lease := k.lease.map FlowLease.invalidate }
  | dropped (call : FlowCall) :
    Moves k call none
      { k with
        lease := none
        retired := k.retired ++ (k.lease.map FlowLease.invalidate).toList
        pending := none
        nextProbe := none }
  /-- A REGISTER on a path without NAT: no probes, proven as long as the lease. -/
  | exempted {response : Bytes} {defaultExpires : ℕ} {now : Instant} {lease : FlowLease}
      (hlease : Extends k lease) (expires : Duration) (offered : Bool) :
    Moves k (.registered response false defaultExpires now) none
      { k with
        lease := some (FlowLease.acknowledge
          { lease with expires := now + expires, offered := offered, negotiated := true }
          (now + expires))
        tcp := false
        nextProbe := none
        pending := none }
  /-- A REGISTER that negotiates outbound: a flow without a probe gets one at once. -/
  | refreshed {response : Bytes} {tcp : Bool} {defaultExpires : ℕ} {now : Instant}
      {lease : FlowLease} (hlease : Extends k lease) (expires : Duration) (offered : Bool)
      {nextProbe : Option Instant}
      (hnext : k.nextProbe = none ∧ k.pending = none ∧ nextProbe = some now ∨
        (k.nextProbe.isSome ∨ k.pending.isSome) ∧ nextProbe = k.nextProbe) :
    Moves k (.registered response tcp defaultExpires now) none
      { k with
        lease := some
          { lease with expires := now + expires, offered := offered, negotiated := true }
        tcp := tcp
        nextProbe := nextProbe }
  /-- A REGISTER without outbound. -/
  | unneeded {response : Bytes} {tcp : Bool} {defaultExpires : ℕ} {now : Instant}
      {lease : FlowLease} (hlease : Extends k lease) (expires : Duration) (offered : Bool) :
    Moves k (.registered response tcp defaultExpires now) none
      { k with
        lease := some
          { lease with expires := now + expires, offered := offered, negotiated := false }
        tcp := tcp
        nextProbe := none
        pending := none }
  /-- The first packet of a probe. -/
  | started {now next : Instant} {id packet : Bytes} (hpending : k.pending = none)
      (hnext : k.nextProbe = some next) (hdue : next ≤ now) :
    Moves k (.poll now (some id)) (some packet)
      { k with
        nextProbe := none
        pending := some
          { id := id, packet := packet, retransmits := 0,
            deadline := now + if k.tcp then PONG_TIMEOUT else STUN_RTO,
            timeoutAt := now + OutboundFlow.probeTimeout k.tcp } }
  /-- The packet of the outstanding probe once more. -/
  | resent {p : PendingProbe} {now : Instant} {random : Option Bytes} {deadline : Instant}
      (hpending : k.pending = some p) (hdue : p.deadline ≤ now) (hin : now < p.timeoutAt)
      (hleft : p.retransmits < 7) (hlast : p.retransmits + 1 = 7 → deadline = p.timeoutAt)
      (hdeadline : deadline ≤ p.timeoutAt) :
    Moves k (.poll now random) (some p.packet)
      { k with pending := some { p with retransmits := p.retransmits + 1, deadline := deadline } }
  /-- No retransmission is left. -/
  | spent {p : PendingProbe} {now : Instant} {random : Option Bytes}
      (hpending : k.pending = some p) :
    Moves k (.poll now random) none { k with pending := some { p with deadline := p.timeoutAt } }
  /-- The outstanding probe was answered. -/
  | acknowledged {call : FlowCall} (hcall : call.isAnswer) (hpending : k.pending.isSome)
      (next : Instant) :
    Moves k call none
      { k with
        lease := k.lease.map (FlowLease.acknowledge · (next + OutboundFlow.probeTimeout k.tcp))
        nextProbe := some next
        pending := none }

namespace OutboundFlow

theorem keepalive_fail (f : OutboundFlow) (code : String) : (f.fail code).2.keepalive =
      { f.keepalive with lease := f.lease.map FlowLease.invalidate } := by
  simp only [fail]
  split
  · rfl
  · split <;> rfl

variable {offered : Bool} {now : Instant}

theorem extends_leaseOrNew {f : OutboundFlow} {offer : Offer}
    (h : (f.leaseOrNew offer offered now).failed = false) :
    Extends f.keepalive (f.leaseOrNew offer offered now) := by
  refine ⟨h, ?_⟩
  cases hl : f.lease with
  | none => exact Or.inr ⟨hl, by simp [leaseOrNew, hl]⟩
  | some lease => exact Or.inl (by simp [leaseOrNew, keepalive, hl])

/-- What scheduling the probes can do, once the lease of `k` has been extended. -/
theorem moves_scheduleProbes {k : Keepalive} {g : OutboundFlow} {lease : FlowLease}
    (hlease : Extends k lease) {negotiated : Bool} {expires : Duration} (hl : g.lease = some
      { lease with expires := now + expires, offered := offered, negotiated := negotiated })
    (hn : g.nextProbe = k.nextProbe) (hp : g.pending = k.pending) (hr : g.retired = k.retired)
    (response : Bytes) (defaultExpires : ℕ) :
    Moves k (.registered response g.tcp defaultExpires now) none
      (g.scheduleProbes negotiated expires now).keepalive := by
  obtain ⟨kLease, kTcp, kNext, kPending, kRetired⟩ := k
  subst hn hp hr
  rw [scheduleProbes]
  split
  case isTrue hexempt =>
    obtain ⟨⟨⟨rfl, htcp⟩, -⟩, -⟩ : ((negotiated = true ∧ g.tcp = false) ∧ g.noNat = true) ∧
        g.timer.isNone = true := by simpa using hexempt
    simp only [keepalive, report, hl, htcp, Option.map_some]
    exact .exempted hlease expires offered
  case isFalse =>
    cases negotiated with
    | true =>
      simp only [if_true]
      split
      case isTrue hnone =>
        obtain ⟨hn, hp⟩ : g.nextProbe = none ∧ g.pending = none := by simpa using hnone
        simp only [keepalive, hl]
        exact .refreshed hlease expires offered (.inl ⟨hn, hp, rfl⟩)
      case isFalse hsome =>
        simp only [keepalive, hl]
        refine .refreshed hlease expires offered (.inr ⟨?_, rfl⟩)
        cases hn : g.nextProbe with
        | some next => exact Or.inl rfl
        | none =>
          cases hp : g.pending with
          | some p => exact Or.inr rfl
          | none => simp [hn, hp] at hsome
    | false =>
      simp only [Bool.false_eq_true, if_false, keepalive, hl]
      exact .unneeded hlease expires offered

variable (f : OutboundFlow)
include f

/-- What an accepted REGISTER with a positive lifetime can do. -/
theorem moves_acceptLease (offer : Offer) (offered negotiated tcp : Bool)
    (timer : Option ℕ) (expires : Duration) (now : Instant) (response : Bytes)
    (defaultExpires : ℕ) : Moves f.keepalive (.registered response tcp defaultExpires now) none
      (f.acceptLease offer offered negotiated tcp timer expires now).2.keepalive := by
  rw [acceptLease]
  split
  case isTrue hfailed =>
    -- only a lease that was held can have failed
    have hheld : f.lease = some (f.leaseOrNew offer offered now) := by
      cases hl : f.lease with
      | none => simp [leaseOrNew, hl] at hfailed
      | some lease => simp [leaseOrNew, hl]
    rw [← hheld]
    exact .unchanged _
  case isFalse hlive =>
    have hlease := extends_leaseOrNew (Bool.eq_false_of_not_eq_true hlive)
    let extended : FlowLease := { f.leaseOrNew offer offered now with
      expires := now + expires, offered := offered, negotiated := negotiated }
    exact moves_scheduleProbes
      (g := { f with
        lease := some extended, attached := true, tcp := tcp, timer := timer
        reports := f.reports ++ [.attachFlow] })
      hlease rfl rfl rfl rfl response defaultExpires

theorem moves_registered (response : Bytes) (tcp : Bool) (defaultExpires : ℕ)
    (now : Instant) : Moves f.keepalive (.registered response tcp defaultExpires now) none
      (f.registered response tcp defaultExpires now).2.keepalive := by
  rw [registered]
  split
  case h_2 => exact .unchanged _
  case h_1 offer request _ _ =>
  split
  case isTrue => exact .unchanged _
  case isFalse =>
  dsimp only
  split
  case isTrue =>
    split
    case isTrue => exact .failed _
    case isFalse => exact .unchanged _
  case isFalse =>
  split
  case isTrue => exact .dropped _
  case isFalse =>
    exact moves_acceptLease (f.report _) offer _ _ tcp _ _ now response defaultExpires

theorem moves_pollPending {p : PendingProbe} (hp : f.pending = some p)
    (now : Instant) (random : Option Bytes) :
    Moves f.keepalive (.poll now random) (FlowAnswer.ofResult .sent (f.pollPending p now).1).packet?
      (f.pollPending p now).2.keepalive := by
  rw [pollPending]
  split
  case isTrue => exact .unchanged _
  case isFalse hdue =>
  split
  case isTrue =>
    rw [keepalive_fail]
    exact .failed _
  case isFalse hin =>
  obtain ⟨-, hin⟩ : f.tcp = false ∧ now < p.timeoutAt := by simpa using hin
  split
  case isTrue => exact .spent hp
  case isFalse hleft =>
    refine .resent hp (not_lt.mp hdue) hin (not_le.mp hleft) (fun hlast => if_pos hlast) ?_
    split
    · exact le_rfl
    · exact min_le_right _ _

theorem moves_poll (now : Instant) (random : Option Bytes) :
    Moves f.keepalive (.poll now random) (FlowAnswer.ofResult .sent (f.poll now random).1).packet?
      (f.poll now random).2.keepalive := by
  rw [poll.eq_def]
  split
  case isTrue => exact .unchanged _
  case isFalse =>
  cases hp : f.pending with
  | some p => exact moves_pollPending f hp now random
  | none =>
    cases hn : f.nextProbe with
    | none => exact .unchanged _
    | some next =>
      simp only [Option.all_some, decide_eq_true_eq]
      split
      case isTrue => exact .unchanged _
      case isFalse hdue =>
        cases random with
        | none => exact .unchanged _
        | some id => exact .started hp hn (not_lt.mp hdue)

theorem keepalive_acknowledged (now : Instant) (interval : Duration) :
    ∃ next, (f.acknowledged now interval).keepalive = { f.keepalive with
        lease := f.lease.map (FlowLease.acknowledge · (next + probeTimeout f.tcp))
        nextProbe := some next
        pending := none } := by
  rw [acknowledged]
  dsimp only
  split <;> exact ⟨_, rfl⟩

theorem moves_pong (now : Instant) (interval : Duration) :
    Moves f.keepalive (.pong now interval) none (f.pong now interval).keepalive := by
  rw [pong]
  split
  case isTrue hpending =>
    obtain ⟨next, hnext⟩ := f.keepalive_acknowledged now interval
    rw [hnext]
    exact .acknowledged rfl (Bool.and_eq_true_iff.mp hpending).2 next
  case isFalse => exact .unchanged _

theorem moves_receiveStun (packet : Bytes) (now : Instant)
    (interval : Duration) : Moves f.keepalive (.receiveStun packet now interval) none
      (f.receiveStun packet now interval).2.keepalive := by
  rw [receiveStun]
  split
  case isTrue => exact .unchanged _
  case isFalse =>
  split
  case isTrue => exact .unchanged _
  case isFalse =>
  split
  case h_1 => exact .unchanged _
  case h_2 pending hp =>
  split
  case isTrue => exact .unchanged _
  case isFalse =>
  cases bindingResponse packet pending.id with
  | ignore => exact .unchanged _
  | error =>
    rw [keepalive_fail]
    exact .failed _
  | mapped addr =>
  dsimp only
  split
  case isTrue =>
    rw [keepalive_fail]
    exact .failed _
  case isFalse =>
    obtain ⟨next, hnext⟩ :=
      keepalive_acknowledged { f with mapped := some addr } now interval
    rw [hnext]
    exact .acknowledged rfl (Option.isSome_iff_exists.mpr ⟨pending, hp⟩) next

/-- **What a step can do.** -/
theorem moves_step (call : FlowCall) :
    Moves f.keepalive call (f.step call).1.packet? (f.step call).2.keepalive := by
  cases call with
  | prepared | observed | superseded => exact .unchanged _
  | registered response tcp defaultExpires now =>
    have h := f.moves_registered response tcp defaultExpires now
    rw [step]
    generalize f.registered response tcp defaultExpires now = r at h ⊢
    obtain ⟨answer, f'⟩ := r
    cases answer <;> exact h
  | poll now random => exact f.moves_poll now random
  | pong now interval => exact f.moves_pong now interval
  | receiveStun packet now interval =>
    have h := f.moves_receiveStun packet now interval
    rw [step]
    generalize f.receiveStun packet now interval = r at h ⊢
    obtain ⟨answer, f'⟩ := r
    cases answer <;> exact h
  | fail code =>
    have h := f.keepalive_fail code
    rw [step]
    generalize f.fail code = r at h ⊢
    obtain ⟨e, f'⟩ := r
    change Moves f.keepalive (.fail code) none f'.keepalive
    rw [h]
    exact .failed _
  | disable => exact .dropped _
  | invalidate => exact .failed _

end OutboundFlow

end SimMaster
