import SimMaster.RegEventRevocation

/-!
# Lease, challenges and sequence numbers of the observer

What the four operations write to the lease, the budget of challenges and the counters is bounded
against the history of the run: the lease by the lease of the requests sent last, the challenges by
two for each unauthenticated request, and the numbers by those of the messages before.
-/

namespace SimMaster

namespace RegEvent

namespace RegEventSubscription

open Rust Method List Option

variable {xml : XmlReader} {frame : Frame} {wire : Bytes} {now : ℕ}
  {self next : RegEventSubscription}
  {history : List (Call × Answer)} {call : Call} {answer : Answer}

/-! ## The requested lease -/

/-- The leases passed since the last request sent: those of refused requests may have been kept. -/
def leasesAfter (leases : List ℕ) : Call × Answer → List ℕ
  | (.buildRequest args, .built (.ok _)) => [args.registration.leaseExpiresSeconds]
  | (.buildRequest args, .built (.error _)) => args.registration.leaseExpiresSeconds :: leases
  | _ => leases

def recentLeases (history : List (Call × Answer)) : List ℕ :=
  history.foldl leasesAfter [requestedLeaseMax]

/-- The requested lease is the bounded lease of a recent request. -/
def LeaseInvariant (history : List (Call × Answer)) (sub : RegEventSubscription) : Prop :=
  ∃ lease ∈ recentLeases history, sub.requestedLease = min requestedLeaseMax lease

theorem Transition.requestedLease (h : Transition xml self call answer next) :
    (next.requestedLease = self.requestedLease ∧ ∀ leases,
      leases ⊆ leasesAfter leases (call, answer)) ∨
    ∃ args, call = .buildRequest args ∧
      next.requestedLease = min requestedLeaseMax args.registration.leaseExpiresSeconds ∧
      ∀ leases, args.registration.leaseExpiresSeconds ∈ leasesAfter leases (call, answer) := by
  cases h with
  | @refusedLate args e =>
    exact Or.inr ⟨args, rfl, rfl, fun _ => mem_cons_self⟩
  | @built args =>
    refine Or.inr ⟨args, rfl, ?_, fun _ => mem_cons_self⟩
    rw [beginTransaction_eq]
  | refusedEarly => exact Or.inl ⟨rfl, fun _ => subset_cons_self _ _⟩
  | notified _ _ _ hn =>
    obtain ⟨due, needFull, fullRequests, ⟨hnext, -⟩ | hnext⟩ := hn.next_cases
    all_goals
      rw [hnext]
      exact Or.inl ⟨rfl, fun leases => List.Subset.refl leases⟩
  | _ => exact Or.inl ⟨rfl, fun leases => List.Subset.refl leases⟩

theorem LeaseInvariant.step (h : Transition xml self call answer next)
    (hinv : LeaseInvariant history self) : LeaseInvariant (history ++ [(call, answer)]) next := by
  obtain ⟨lease, hmem, heq⟩ := hinv
  rw [LeaseInvariant, recentLeases, foldl_concat]
  rcases h.requestedLease with ⟨hsame, hsubset⟩ | ⟨args, -, hlease, hadded⟩
  · exact ⟨lease, hsubset _ hmem, hsame.trans heq⟩
  · exact ⟨_, hadded _, hlease⟩

/-! ## The budget of challenges -/

/-- The challenges passed on since the last unauthenticated request. -/
def roundAfter (challenges : List DigestChallenge) : Call × Answer → List DigestChallenge
  | (.buildRequest args, .built (.ok _)) => if args.authorization.isNone then [] else challenges
  | (_, .frame (.authChallenge challenge)) => challenges ++ [challenge]
  | _ => challenges

def currentRound (history : List (Call × Answer)) : List DigestChallenge :=
  history.foldl roundAfter []

structure AuthInvariant (history : List (Call × Answer)) (sub : RegEventSubscription) : Prop where
  rounds : (currentRound history).length = sub.authRounds
  atMost : sub.authRounds ≤ 2
  scope : ∀ challenge ∈ currentRound history, ∃ scope, sub.authScope = some scope ∧
    sameScope scope challenge = true

theorem authorizationHeader_isNone {pending : Option Bool} {authorization : Option Str}
    {auth : Option SipHeader} (h : authorizationHeader pending authorization = .ok auth) :
    authorization.isNone = pending.isNone := by
  cases pending with
  | none =>
    cases authorization with
    | none => rfl
    | some value => cases h
  | some proxy =>
    cases authorization with
    | none => cases h
    | some value => rfl

variable {status : ℕ} {challenge : DigestChallenge}

theorem responseChallenge_ok (h : self.responseChallenge frame status = .ok challenge) :
    self.authRounds < 2 ∧ ∀ scope, self.authScope = some scope →
      sameScope scope challenge = true := by
  obtain ⟨server, -, h⟩ := bind_eq_ok.1 h
  obtain ⟨verify, -, h⟩ := bind_eq_ok.1 h
  obtain ⟨hbudget, h⟩ := guard_eq_ok h
  obtain ⟨other, -, h⟩ := bind_eq_ok.1 h
  obtain ⟨-, h⟩ := guard_eq_ok h
  obtain ⟨value, -, h⟩ := bind_eq_ok.1 h
  obtain ⟨-, h⟩ := guard_eq_ok h
  obtain ⟨-, h⟩ := guard_eq_ok h
  obtain ⟨selected, -, h⟩ := bind_eq_ok.1 h
  obtain ⟨hscope, h⟩ := guard_eq_ok h
  cases h
  simp only [Bool.or_eq_true, decide_eq_true_iff, not_or, Nat.not_le] at hbudget
  refine ⟨hbudget.1.1, fun scope hscope' => ?_⟩
  rw [Bool.not_eq_true', Bool.not_eq_false, scopeAdmits, hscope', all_some] at hscope
  exact hscope

theorem sameScope_iff {proxy : Bool} {realm algorithm : Str} :
    sameScope (proxy, realm, algorithm) challenge = true ↔
      proxy = challenge.proxy ∧ realm = challenge.realm ∧
        toAsciiLowercase algorithm = toAsciiLowercase challenge.algorithm := by
  simp [sameScope, eqIgnoreAsciiCase, and_assoc]

/-- The scope of a challenge. -/
def scopeOf (challenge : DigestChallenge) : Bool × Str × Str :=
  (challenge.proxy, challenge.realm, challenge.algorithm)

theorem sameScope_self (challenge : DigestChallenge) :
    sameScope (scopeOf challenge) challenge = true := sameScope_iff.2 ⟨rfl, rfl, rfl⟩

/-- Challenges in one scope have each other's scope. -/
theorem sameScope_scopeOf {scope : Bool × Str × Str} {challenge' : DigestChallenge}
    (h : sameScope scope challenge = true) (h' : sameScope scope challenge' = true) :
    sameScope (scopeOf challenge) challenge' = true := by
  obtain ⟨hproxy, hrealm, halgorithm⟩ := sameScope_iff.1 h
  obtain ⟨hproxy', hrealm', halgorithm'⟩ := sameScope_iff.1 h'
  exact sameScope_iff.2 ⟨hproxy.symm.trans hproxy', hrealm.symm.trans hrealm',
    halgorithm.symm.trans halgorithm'⟩

/-- The ways the budget of challenges changes: it starts anew, it grows, or it stays. -/
theorem Transition.auth (h : Transition xml self call answer next)
    (history : List (Call × Answer)) :
    (roundAfter (currentRound history) (call, answer) = [] ∧ next.authRounds = 0) ∨
    (∃ challenge, roundAfter (currentRound history) (call, answer) =
        currentRound history ++ [challenge] ∧
      next.authRounds = self.authRounds + 1 ∧ next.authScope = some (scopeOf challenge) ∧
      self.authRounds < 2 ∧ ∀ scope, self.authScope = some scope →
        sameScope scope challenge = true) ∨
    (roundAfter (currentRound history) (call, answer) = currentRound history ∧
      next.authRounds = self.authRounds ∧ next.authScope = self.authScope) := by
  cases h with
  | @built args auth headers branch _ hauth =>
    have hnone := authorizationHeader_isNone hauth
    rw [roundAfter, hnone]
    rw [beginTransaction_eq]
    cases hpending : self.authPending.isNone with
    | true => exact Or.inl ⟨rfl, rfl⟩
    | false => exact Or.inr (Or.inr ⟨rfl, rfl, rfl⟩)
  | challenged _ hok =>
    obtain ⟨hbudget, hscope⟩ := responseChallenge_ok hok
    exact Or.inr (Or.inl ⟨_, rfl, rfl, rfl, hbudget, hscope⟩)
  | notified _ _ _ hn =>
    obtain ⟨due, needFull, fullRequests, ⟨hnext, -⟩ | hnext⟩ := hn.next_cases
    all_goals
      rw [hnext]
      exact Or.inr (Or.inr ⟨rfl, rfl, rfl⟩)
  | _ => exact Or.inr (Or.inr ⟨rfl, rfl, rfl⟩)

theorem AuthInvariant.step (h : Transition xml self call answer next)
    (hinv : AuthInvariant history self) : AuthInvariant (history ++ [(call, answer)]) next := by
  have hround : currentRound (history ++ [(call, answer)]) =
      roundAfter (currentRound history) (call, answer) := foldl_concat ..
  rcases h.auth history with ⟨hnew, hrounds⟩ |
    ⟨challenge, hnew, hrounds, hscope, hbudget, hadmits⟩ | ⟨hnew, hrounds, hscope⟩
  · refine ⟨by rw [hround, hnew, hrounds]; rfl, by rw [hrounds]; decide, ?_⟩
    rw [hround, hnew]
    intro challenge hmem
    cases hmem
  · refine ⟨by rw [hround, hnew, hrounds, ← hinv.rounds]; simp, by rw [hrounds]; omega, ?_⟩
    rw [hround, hnew]
    intro earlier hmem
    refine ⟨_, hscope, ?_⟩
    rcases mem_append.1 hmem with hmem | hmem
    · obtain ⟨scope, hsome, hsame⟩ := hinv.scope earlier hmem
      exact sameScope_scopeOf (hadmits scope hsome) hsame
    · rw [mem_singleton.1 hmem]
      exact sameScope_self challenge
  · refine ⟨by rw [hround, hnew, hrounds, hinv.rounds], by rw [hrounds]; exact hinv.atMost, ?_⟩
    rw [hround, hnew, hscope]
    exact hinv.scope

/-! ## Sequence numbers -/

/-- The call sent a SUBSCRIBE. -/
def sentRequest : Call × Answer → Bool
  | (.buildRequest _, .built (.ok _)) => true
  | _ => false

/-- The CSeq of a NOTIFY. -/
def notifyCseq (wire : Bytes) : Option ℕ := do
  let frame ← (Frame.parse wire).toOption
  let (cseq, _) ← frame.cseq.toOption
  return cseq

theorem Transition.cseq (h : Transition xml self call answer next) :
    next.cseq = self.cseq + [(call, answer)].countP sentRequest ∧
      ∀ wire, answer = .built (.ok wire) →
        ∃ request : SipRequest, wire = request.build ∧ request.cseq = next.cseq := by
  cases h with
  | @built args auth headers branch =>
    refine ⟨rfl, fun wire hwire => ?_⟩
    exact ⟨self.subscribeRequest args headers (self.cseq + 1) branch,
      (Except.ok.inj (Answer.built.inj hwire)).symm, rfl⟩
  | notified _ _ _ hn =>
    obtain ⟨due, needFull, fullRequests, ⟨hnext, -⟩ | hnext⟩ := hn.next_cases
    all_goals
      rw [hnext]
      exact ⟨rfl, by rintro wire ⟨⟩⟩
  | _ => exact ⟨rfl, by rintro wire ⟨⟩⟩

/-- The CSeq the checks of the dialog found is that of the frame. -/
theorem notifyDialog_cseq {remote : Str} {cseq : ℕ}
    (h : self.notifyDialog frame = .ok (remote, cseq)) :
    frame.cseq = .ok (cseq, "NOTIFY".toList) := by
  obtain ⟨eventHeader, -, h⟩ := bind_eq_ok.1 h
  obtain ⟨eventValue, -, h⟩ := bind_eq_ok.1 h
  obtain ⟨⟨event, params⟩, -, h⟩ := bind_eq_ok.1 h
  obtain ⟨-, h⟩ := guard_eq_ok h
  obtain ⟨callId, -, h⟩ := bind_eq_ok.1 h
  obtain ⟨-, h⟩ := guard_eq_ok h
  obtain ⟨fromValue, -, h⟩ := bind_eq_ok.1 h
  obtain ⟨fromAddress, -, h⟩ := bind_eq_ok.1 h
  obtain ⟨toValue, -, h⟩ := bind_eq_ok.1 h
  obtain ⟨toAddress, -, h⟩ := bind_eq_ok.1 h
  obtain ⟨tag, -, h⟩ := bind_eq_ok.1 h
  obtain ⟨remote', -, h⟩ := bind_eq_ok.1 h
  obtain ⟨-, h⟩ := guard_eq_ok h
  obtain ⟨⟨cseq', method⟩, hcseq, h⟩ := bind_eq_ok.1 h
  obtain ⟨hmethod, h⟩ := guard_eq_ok h
  cases h
  rw [orStatus_eq_ok.1 hcseq, not_not.1 hmethod]

variable {effect : RegEventEffect}

theorem Notified.notifyCseq (h : Notified xml self frame wire now effect next)
    (hparse : Frame.parse wire = .ok frame) : notifyCseq wire = some h.cseq := by
  rw [RegEventSubscription.notifyCseq, hparse]
  change (frame.cseq.toOption.bind fun cseq => some cseq.1) = _
  rw [notifyDialog_cseq h.dialog]
  rfl

/-- The numbers of both directions against the history. -/
structure SequenceInvariant (history : List (Call × Answer)) (sub : RegEventSubscription) :
    Prop where
  subscribe : sub.cseq = history.countP sentRequest
  last : ∀ cseq wire, sub.lastNotify = some (cseq, wire) → notifyCseq wire = some cseq
  notify : ∀ earlier ∈ history.filterMap acceptedNotify, ∃ cseq last wire,
    notifyCseq earlier = some cseq ∧ sub.lastNotify = some (last, wire) ∧ cseq ≤ last

theorem SequenceInvariant.step (h : Transition xml self call answer next)
    (hinv : SequenceInvariant history self) :
    SequenceInvariant (history ++ [(call, answer)]) next := by
  have hsubscribe : next.cseq = (history ++ [(call, answer)]).countP sentRequest := by
    rw [countP_append, ← hinv.subscribe, h.cseq.1]
  rcases h.heard with ⟨haccepted, -, -, hlast⟩ | ⟨wire, cseq, haccepted, -, hlast, rfl⟩ |
    ⟨wire, now, frame, effect, rfl, rfl, hparse, ⟨hn⟩⟩
  · refine ⟨hsubscribe, by rw [hlast]; exact hinv.last, ?_⟩
    rw [filterMap_append, filterMap_cons_none haccepted, filterMap_nil, append_nil, hlast]
    exact hinv.notify
  · refine ⟨hsubscribe, hinv.last, ?_⟩
    rw [filterMap_append, filterMap_cons_some haccepted]
    intro earlier hmem
    rcases mem_append.1 hmem with hmem | hmem
    · exact hinv.notify earlier hmem
    · rw [mem_singleton.1 hmem]
      exact ⟨cseq, cseq, wire, hinv.last cseq wire hlast, hlast, le_rfl⟩
  · have hlast := hn.recorded.1
    have hcseq := hn.notifyCseq hparse
    refine ⟨hsubscribe, ?_, ?_⟩
    · rw [hlast]
      rintro cseq' wire' ⟨⟩
      exact hcseq
    · rw [filterMap_append]
      intro earlier hmem
      rcases mem_append.1 hmem with hmem | hmem
      · obtain ⟨cseq, last, bytes, hearlier, hbefore, hle⟩ := hinv.notify earlier hmem
        exact ⟨cseq, hn.cseq, wire, hearlier, hlast, hle.trans (hn.newer last bytes hbefore).le⟩
      · obtain rfl : earlier = wire := mem_singleton.1 hmem
        exact ⟨hn.cseq, hn.cseq, _, hcseq, hlast, le_rfl⟩

/-! ## The lease of a call -/

theorem stateParameters_terminated {params : List (Str × Option Str)} :
    ∀ {state result : SubscriptionState}, stateParameters state params = .ok result →
      result.terminated = state.terminated := by
  induction params with
  | nil =>
    intro state result h
    cases h
    rfl
  | cons param params ih =>
    intro state result h
    obtain ⟨value, -, h⟩ := bind_eq_ok.1 h
    split_ifs at h
    · obtain ⟨expires, -, h⟩ := bind_eq_ok.1 h
      have hsame := ih h
      exact hsame
    · obtain ⟨retryAfter, -, h⟩ := bind_eq_ok.1 h
      have hsame := ih h
      exact hsame
    · exact ih h

/-- A subscription that goes on says until when. -/
theorem subscriptionState_expires {value : Str} {state : SubscriptionState}
    (h : subscriptionState value = .ok state) (hon : state.terminated = false) :
    ∃ expires, state.expires = some expires := by
  obtain ⟨⟨name, params⟩, -, h⟩ := bind_eq_ok.1 h
  obtain ⟨terminated, -, h⟩ := bind_eq_ok.1 h
  obtain ⟨parsed, hparsed, h⟩ := bind_eq_ok.1 h
  obtain ⟨hexpires, h⟩ := guard_eq_ok h
  cases h
  obtain rfl : terminated = false := (stateParameters_terminated hparsed).symm.trans hon
  rw [Bool.not_false, Bool.true_and, isNone_iff_eq_none] at hexpires
  exact ne_none_iff_exists'.1 hexpires

theorem secs_le_secs {m n : ℕ} (h : m ≤ n) : secs m ≤ secs n := Nat.mul_le_mul_right _ h

theorem recordEnd_terminated (effect : RegEventEffect) :
    self.recordEnd true effect = self.disable := by
  rw [recordEnd, Bool.true_or, if_pos rfl]

/-- An accepted NOTIFY that leaves the observer on bounds the lease by what was requested. -/
theorem Notified.lease_le (h : Notified xml self frame wire now effect next)
    (hon : next.disabled = false) :
    ∃ lease ≤ now + secs next.requestedLease, next.leaseDeadline = some lease := by
  have hactive : h.subscription.terminated = false := by
    cases hterminated : h.subscription.terminated with
    | false => rfl
    | true =>
      rw [h.next_eq, acceptNotify, hterminated, recordEnd_terminated] at hon
      cases hon
  obtain ⟨value, hvalue⟩ := (notifyContent_eq_ok h.content).1
  obtain ⟨expires, hexpires⟩ := subscriptionState_expires hvalue hactive
  have hlease : next.requestedLease = self.requestedLease := by
    obtain ⟨due, needFull, fullRequests, ⟨hnext, -⟩ | hnext⟩ := h.next_cases
    all_goals
      have hsame := congrArg RegEventSubscription.requestedLease hnext
      exact hsame
  have hbound := secs_le_secs (min_le_right expires self.requestedLease)
  rw [h.recorded.2.2.2, hexpires, hlease]
  cases hold : self.leaseDeadline with
  | none =>
    rw [leaseAfterNotify_some, hold, elim_none]
    exact ⟨_, Nat.add_le_add_left hbound now, rfl⟩
  | some old =>
    rw [leaseAfterNotify_some, hold, elim_some]
    exact ⟨_, (min_le_right _ _).trans (Nat.add_le_add_left hbound now), rfl⟩

/-- No NOTIFY makes the lease longer. -/
theorem Notified.lease_shortens
    (h : Notified xml self frame wire now effect next) {old : ℕ}
    (hold : self.leaseDeadline = some old) :
    ∃ lease ≤ old, next.leaseDeadline = some lease := by
  rw [h.recorded.2.2.2]
  cases h.subscription.expires with
  | none =>
    rw [leaseAfterNotify_none, hold]
    exact ⟨old, le_rfl, rfl⟩
  | some expires =>
    rw [leaseAfterNotify_some, hold, elim_some]
    exact ⟨_, min_le_left _ _, rfl⟩

/-! ## Every call of every run -/

/-- The answer is that of a NOTIFY. -/
def Answer.IsNotify (answer : Answer) : Prop :=
  ∃ status effect, answer = .frame (.notify status effect)

/-- The bounds on what a call does after the given history. -/
structure CallBounds (xml : XmlReader) (history : List (Call × Answer)) (sub : RegEventSubscription)
    (call : Call) (answer : Answer) (next : RegEventSubscription) : Prop where
  /-- No NOTIFY makes the lease longer. -/
  shortens : answer.IsNotify → ∀ old, sub.leaseDeadline = some old →
    ∃ lease ≤ old, next.leaseDeadline = some lease
  /-- An acceptance, and a NOTIFY that changes the state, leave a lease of at most what was
  requested, unless they end the observation. -/
  bounded : ∀ wire now, call = .onFrame wire now → next.disabled = false →
    (answer = .frame (.response 200) ∨ answer = .frame (.response 202) ∨
      answer.IsNotify ∧ next ≠ sub) →
    ∃ lease ≤ now + secs next.requestedLease, next.leaseDeadline = some lease
  /-- The requested lease is the bounded lease of the last request sent, or of a refused one
  since. -/
  requested : ∃ lease ∈ recentLeases (history ++ [(call, answer)]),
    next.requestedLease = min requestedLeaseMax lease
  /-- There are at most two challenges for an unauthenticated request. -/
  rounds : (currentRound (history ++ [(call, answer)])).length = next.authRounds ∧
    next.authRounds ≤ 2
  /-- The challenges for one request have one scope. -/
  scope : ∀ challenge ∈ currentRound (history ++ [(call, answer)]),
    ∀ challenge' ∈ currentRound (history ++ [(call, answer)]),
      sameScope (scopeOf challenge) challenge' = true
  /-- The requests sent are numbered from one. -/
  subscribe : ∀ wire, answer = .built (.ok wire) →
    ∃ request : SipRequest, wire = request.build ∧ request.cseq = history.countP sentRequest + 1
  /-- A NOTIFY that changes the state has a higher CSeq than every one accepted before. -/
  notify : ∀ wire now, call = .onFrame wire now → answer.IsNotify → next ≠ sub →
    ∃ cseq, notifyCseq wire = some cseq ∧ ∀ earlier ∈ history.filterMap acceptedNotify,
      ∃ before < cseq, notifyCseq earlier = some before
  /-- The version of the snapshot only grows, and it is that of the document that changed it. -/
  version : next.snapshot = sub.snapshot ∨ ∃ wire document,
    acceptedNotify (call, answer) = some wire ∧ documentOf xml wire = some document ∧
    next.snapshot.version = some document.version ∧
    ∀ earlier ∈ sub.snapshot.version, earlier < document.version

theorem Transition.notify_cases (h : Transition xml self call answer next)
    (hnotify : answer.IsNotify) :
    next = self ∨ ∃ wire now frame effect, call = .onFrame wire now ∧
      Frame.parse wire = .ok frame ∧ acceptedNotify (call, answer) = some wire ∧
      Nonempty (Notified xml self frame wire now effect next) := by
  obtain ⟨status, effect, rfl⟩ := hnotify
  cases h with
  | refusedNotify => exact Or.inl rfl
  | repeatedNotify => exact Or.inl rfl
  | notified hparse _ _ hn =>
    exact Or.inr ⟨_, _, _, _, rfl, hparse, rfl, ⟨hn⟩⟩

theorem Transition.accepted_lease
    (h : Transition xml self (.onFrame wire now) (.frame (.response status)) next)
    (hstatus : status = 200 ∨ status = 202) (hon : next.disabled = false) :
    ∃ lease ≤ now + secs next.requestedLease, next.leaseDeadline = some lease := by
  cases h with
  | failedResponse => cases hon
  | proceeding _ hproceeding => omega
  | accepted _ _ hok =>
    have hbound := secs_le_secs (responseAccepted_eq_ok hok).2
    exact ⟨_, Nat.add_le_add_left hbound now, rfl⟩

theorem Notified.version_cases (h : Notified xml self frame wire now effect next) :
    next.snapshot = self.snapshot ∨ ∃ document, h.document = some document ∧
      next.snapshot.version = some document.version ∧
      ∀ earlier ∈ self.snapshot.version, earlier < document.version := by
  cases hdoc : h.document with
  | none => exact Or.inl (h.of_no_document hdoc).1
  | some document =>
    rw [h.recorded.2.2.1, hdoc, applyDocument]
    rcases self.snapshot.apply_cases document self.binding with ⟨hsame, -⟩ |
      ⟨hfollows, _, _, _, _, hnext⟩
    · exact Or.inl hsame
    · exact Or.inr ⟨document, rfl, by rw [hnext], hfollows.1⟩

/-- The three invariants together. -/
structure BoundInvariant (history : List (Call × Answer)) (sub : RegEventSubscription) : Prop where
  lease : LeaseInvariant history sub
  auth : AuthInvariant history sub
  sequence : SequenceInvariant history sub

theorem BoundInvariant.step (h : Transition xml self call answer next)
    (hinv : BoundInvariant history self) : BoundInvariant (history ++ [(call, answer)]) next :=
  ⟨hinv.lease.step h, hinv.auth.step h, hinv.sequence.step h⟩

theorem boundInvariant_new {binding : RegEventBinding} {start : ℕ}
    {callEntropy tagEntropy : Option Bytes}
    (h : new binding start callEntropy tagEntropy = .ok self) :
    BoundInvariant [] self := by
  obtain ⟨callId, -, h⟩ := bind_eq_ok.1 h
  obtain ⟨localTag, -, h⟩ := bind_eq_ok.1 h
  cases h
  refine ⟨⟨requestedLeaseMax, mem_cons_self, (min_self _).symm⟩, ⟨rfl, Nat.zero_le _, ?_⟩,
    ⟨rfl, ?_, ?_⟩⟩
  · intro challenge hmem
    cases hmem
  · rintro cseq wire ⟨⟩
  · intro earlier hmem
    cases hmem

/-- What holds of every call after a history that keeps the invariants. -/
theorem BoundInvariant.callBounds (hinv : BoundInvariant history self)
    (h : Transition xml self call answer next) : CallBounds xml history self call answer next where
  shortens := by
    intro hnotify old hold
    rcases h.notify_cases hnotify with rfl | ⟨wire, now, frame, effect, -, -, -, ⟨hn⟩⟩
    · exact ⟨old, le_rfl, hold⟩
    · exact hn.lease_shortens hold
  bounded := by
    rintro wire now rfl hon (rfl | rfl | ⟨hnotify, hchanged⟩)
    · exact h.accepted_lease (Or.inl rfl) hon
    · exact h.accepted_lease (Or.inr rfl) hon
    · rcases h.notify_cases hnotify with heq | ⟨wire, now, frame, effect, hcall, -, -, ⟨hn⟩⟩
      · exact absurd heq hchanged
      · cases hcall
        exact hn.lease_le hon
  requested := hinv.lease.step h
  rounds := ⟨(hinv.auth.step h).rounds, (hinv.auth.step h).atMost⟩
  scope := by
    intro challenge hmem challenge' hmem'
    obtain ⟨scope, hscope, hsame⟩ := (hinv.auth.step h).scope challenge hmem
    obtain ⟨scope', hscope', hsame'⟩ := (hinv.auth.step h).scope challenge' hmem'
    obtain rfl := some.inj (hscope.symm.trans hscope')
    exact sameScope_scopeOf hsame hsame'
  subscribe := by
    rintro wire rfl
    obtain ⟨request, hwire, hcseq⟩ := h.cseq.2 wire rfl
    refine ⟨request, hwire, ?_⟩
    rw [hcseq, (hinv.sequence.step h).subscribe, countP_append]
    cases call with
    | buildRequest args => rfl
    | poll now => cases h
    | disable => cases h
    | onFrame wire now => cases h
  notify := by
    rintro wire now rfl hnotify hchanged
    rcases h.notify_cases hnotify with heq | ⟨wire, now, frame, effect, hcall, hparse, -, ⟨hn⟩⟩
    · exact absurd heq hchanged
    · cases hcall
      refine ⟨hn.cseq, hn.notifyCseq hparse, fun earlier hmem => ?_⟩
      obtain ⟨before, last, bytes, hbefore, hlast, hle⟩ := hinv.sequence.notify earlier hmem
      exact ⟨before, hle.trans_lt (hn.newer last bytes hlast), hbefore⟩
  version := by
    rcases h.heard with ⟨-, -, hsnapshot, -⟩ | ⟨-, -, -, -, -, rfl⟩ |
      ⟨wire, now, frame, effect, rfl, rfl, hparse, ⟨hn⟩⟩
    · exact Or.inl hsnapshot
    · exact Or.inl rfl
    · refine hn.version_cases.imp_right fun ⟨document, hdoc, hversion, hnewer⟩ => ?_
      exact ⟨wire, document, rfl, (hn.documentOf_eq hparse).trans hdoc, hversion, hnewer⟩

/-- **Lease, challenges and numbers are bounded** in every call of every run. -/
theorem callBounds_run (xml : XmlReader) {binding : RegEventBinding} {start : ℕ}
    {callEntropy tagEntropy : Option Bytes} {initial : RegEventSubscription}
    (hnew : new binding start callEntropy tagEntropy = .ok initial) (calls : List Call)
    (call : Call) :
    CallBounds xml (Machine.trace (step xml) initial calls) (Machine.run (step xml) initial calls)
      call (step xml (Machine.run (step xml) initial calls) call).1
      (step xml (Machine.run (step xml) initial calls) call).2 := by
  have hinv : BoundInvariant (Machine.trace (step xml) initial calls)
      (Machine.run (step xml) initial calls) :=
    Machine.history_invariant (step xml) (boundInvariant_new hnew)
      (fun _ _ call hinv => hinv.step (step_transition call)) calls
  exact hinv.callBounds (step_transition call)

/-! ## Sample runs -/

/-- A final response to the request with the given CSeq. -/
def sampleOk (cseq expires : String) : Bytes :=
  ascii "SIP/2.0 200 OK\r\nVia: SIP/2.0/UDP h;branch=z9hG4bK" ++ ascii sampleId ++
  ascii "\r\nFrom: <sip:a@h>;tag=" ++ ascii sampleId ++
    ascii "\r\nTo: <sip:a@h>;tag=r\r\nCall-ID: " ++
  ascii sampleId ++ ascii "@reg-event.invalid\r\nCSeq: " ++ ascii cseq ++
  ascii " SUBSCRIBE\r\nContact: <sip:n@h>\r\nExpires: " ++ ascii expires ++
  ascii "\r\nContent-Length: 0\r\n\r\n"

/-- The first request of `sampleStart` was sent. -/
def sampleAsked : RegEventSubscription :=
  Machine.run (step emptyXml) sampleStart [.buildRequest (sampleArgs 600 0)]

/-- The lease granted is bounded by the one asked for. -/
theorem callBounds_run_sample :
    ∃ lease ≤ 7 + secs (onFrame emptyXml (sampleOk "1" "900") 7 sampleAsked).2.requestedLease,
      (onFrame emptyXml (sampleOk "1" "900") 7 sampleAsked).2.leaseDeadline = some lease := by
  have hbounds := callBounds_run emptyXml new_sampleStart [.buildRequest (sampleArgs 600 0)]
    (.onFrame (sampleOk "1" "900") 7)
  change CallBounds emptyXml _ sampleAsked _ (step emptyXml sampleAsked _).1
    (step emptyXml sampleAsked _).2 at hbounds
  rw [step_onFrame] at hbounds
  have hanswer : (onFrame emptyXml (sampleOk "1" "900") 7 sampleAsked).1 = .response 200 ∧
      (onFrame emptyXml (sampleOk "1" "900") 7 sampleAsked).2.disabled = false := by decide +kernel
  dsimp only at hbounds
  obtain ⟨hstatus, hon⟩ := hanswer
  have hbounded := hbounds.bounded (sampleOk "1" "900") 7 rfl hon
  rw [hstatus] at hbounded
  exact hbounded (Or.inl rfl)

/-- A subscription granted for 600 seconds whose refresh asks for 100. -/
def sampleRefreshed : RegEventSubscription :=
  Machine.run (step emptyXml) sampleStart
    [.buildRequest (sampleArgs 600 0), .onFrame (sampleOk "1" "600") 0,
      .buildRequest (sampleArgs 100 (secs 300))]

/-- The bounds hold no further: a NOTIFY that ends the subscription or is refused, and an acceptance
that is refused, leave a lease beyond the one requested; a request refused early leaves the
requested lease beyond its own; and a NOTIFY with an older document is accepted. -/
theorem callBounds_sharp :
    (∀ wire ∈ [sampleNotify "1" "terminated" "0" [],
      ascii "NOTIFY sip:c@h SIP/2.0\r\nEvent: reg\r\n",
        sampleOk "2" "0"], (onFrame emptyXml wire (secs 301) sampleRefreshed).1 ∈
        [.notify 200 .none, .notify 400 .none, .response 200] ∧
      (onFrame emptyXml wire (secs 301) sampleRefreshed).2.requestedLease = 100 ∧
      (onFrame emptyXml wire (secs 301) sampleRefreshed).2.leaseDeadline = some (secs 600)) ∧
    (Machine.run (step emptyXml) sampleStart
      [.buildRequest (sampleArgs 600 0), .buildRequest (sampleArgs 100 0)]).requestedLease = 600 ∧
    let newer := sampleNotify "1" "active;expires=600"
      "226" (sampleReginfo "1" "active" "registered")
    let older := sampleNotify "2" "active;expires=600" "226"
      (sampleReginfo "0" "active" "registered")
    let self := Machine.run (step sampleXml) sampleStart
      [.buildRequest (sampleArgs 600 0), .onFrame newer 0]
    (documentOf sampleXml newer).map (·.version) = some 1 ∧
    (documentOf sampleXml older).map (·.version) = some 0 ∧
    self.lastNotify = some (1, newer) ∧ (onFrame sampleXml older 1 self).1 = .notify 200 .none ∧
    (onFrame sampleXml older 1 self).2.lastNotify = some (2, older) := by
  unfold sampleRefreshed
  simp only [sampleNotify, sampleOk, sampleReginfo, sampleId, ascii]
  repeat rw [String.toList_ofList]
  decide +kernel

end RegEventSubscription

end RegEvent

end SimMaster
