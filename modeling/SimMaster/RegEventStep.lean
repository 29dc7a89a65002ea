import SimMaster.RegEvent

/-!
# What a call on the observer can do

`Transition` lists every outcome of a call, with the guards it passed and the state it leaves, and
`step_transition` says that the list is complete. `notify_atomic` is the one fact behind the
outcomes of a refused NOTIFY: whichever of its checks fails, nothing was written. The invariants of
the observer are proved from these cases.
-/

namespace SimMaster

namespace RegEvent

open Rust

namespace RegEventSubscription

open Method

variable {α : Type} {status : ℕ}

theorem orStatus_eq_ok {x : Except ImsError α} {a : α} : orStatus status x = .ok a ↔ x = .ok a := by
  cases x with
  | error e => simp [orStatus]
  | ok b => simp [orStatus]

variable {xml : XmlReader} {frame : Frame} {wire : Bytes} {now : ℕ}
  {self next : RegEventSubscription}

/-! ## NOTIFY requests -/

/-- The statuses a NOTIFY is refused with. -/
abbrev Refusal (status : ℕ) : Prop := status ∈ [400, 415, 420, 481, 489, 500]

theorem raises_orStatus (h : Refusal status) (x : Except ImsError α) :
    Raises Refusal (orStatus status x) := by
  cases x with
  | error e => exact Raises.error h
  | ok a => exact Raises.ok a

theorem raises_okOrStatus (h : Refusal status) (x : Option α) :
    Raises Refusal (okOrStatus status x) := by
  cases x with
  | none => exact Raises.error h
  | some a => exact Raises.ok a

theorem raises_requiredOr400 (name : String) : Raises Refusal (requiredOr400 frame name) :=
  (raises_orStatus (by decide) _).bind fun _ => raises_okOrStatus (by decide) _

theorem raises_notifyDialog : Raises Refusal (self.notifyDialog frame) := by
  refine (raises_orStatus (by decide) _).bind fun _ => ?_
  refine (raises_okOrStatus (by decide) _).bind fun _ => ?_
  refine (raises_orStatus (by decide) _).bind fun ⟨_, _⟩ => Raises.guard (by decide) ?_
  refine (raises_orStatus (by decide) _).bind fun _ => Raises.guard (by decide) ?_
  refine (raises_requiredOr400 _).bind fun _ => (raises_orStatus (by decide) _).bind fun _ => ?_
  refine (raises_requiredOr400 _).bind fun _ => (raises_orStatus (by decide) _).bind fun _ => ?_
  refine (raises_okOrStatus (by decide) _).bind fun _ => ?_
  refine (raises_orStatus (by decide) _).bind fun _ => Raises.guard (by decide) ?_
  refine (raises_orStatus (by decide) _).bind fun ⟨_, _⟩ => Raises.guard (by decide) ?_
  exact Raises.ok _

theorem raises_notifyContent : Raises Refusal (notifyContent xml frame) := by
  refine (raises_requiredOr400 _).bind fun _ => (raises_orStatus (by decide) _).bind fun _ => ?_
  refine (raises_orStatus (by decide) _).bind fun _ => ?_
  refine (raises_orStatus (by decide) _).bind fun _ => Raises.guard (by decide) ?_
  refine (raises_okOrStatus (by decide) _).bind fun _ => ?_
  refine (raises_orStatus (by decide) _).bind fun ⟨_, _⟩ => Raises.guard (by decide) ?_
  split
  · exact Raises.ok _
  refine (raises_okOrStatus (by decide) _).bind fun _ => ?_
  refine (raises_orStatus (by decide) _).bind fun ⟨_, _⟩ => Raises.guard (by decide) ?_
  exact (raises_orStatus (by decide) _).bind fun _ => Raises.ok _

theorem notifyNew_atomic (remote : Str) (cseq : ℕ) :
    Atomic (notifyNew xml frame wire now remote cseq) := by
  refine Atomic.bind_readOnly readOnly_get fun self => Atomic.guard ?_
  refine Atomic.bind_readOnly (readOnly_lift _) fun ⟨subscription, document⟩ => ?_
  refine Atomic.bind_readOnly (readOnly_lift _) fun contactValue => ?_
  refine Atomic.bind_readOnly (readOnly_lift _) fun contact => ?_
  refine Atomic.bind_readOnly (readOnly_lift _) fun routes => Atomic.guard ?_
  refine Atomic.bind_readOnly (readOnly_lift _) fun effect => Infallible.atomic ?_
  -- from here on the method only writes
  refine (infallible_modify _).bind fun _ => (infallible_modify _).bind fun _ => ?_
  exact (infallible_modify _).bind fun _ => (infallible_modify _).bind fun _ => infallible_pure _

theorem notifyNew_refusal (remote : Str) (cseq : ℕ) :
    RaisesOnly Refusal (notifyNew xml frame wire now remote cseq) := by
  refine RaisesOnly.get_bind fun self => RaisesOnly.guard (by decide) ?_
  refine RaisesOnly.lift_bind raises_notifyContent fun ⟨subscription, document⟩ => ?_
  refine RaisesOnly.lift_bind (raises_requiredOr400 _) fun contactValue => ?_
  refine RaisesOnly.lift_bind (raises_orStatus (by decide) _) fun contact => ?_
  refine RaisesOnly.lift_bind (raises_orStatus (by decide) _) fun routes => ?_
  refine RaisesOnly.guard (by decide) ?_
  refine RaisesOnly.lift_bind (raises_orStatus (by decide) _) fun effect => ?_
  refine Infallible.raisesOnly ?_
  refine (infallible_modify _).bind fun _ => (infallible_modify _).bind fun _ => ?_
  exact (infallible_modify _).bind fun _ => (infallible_modify _).bind fun _ => infallible_pure _

/-- A NOTIFY is refused with a status of an error. -/
theorem notify_refusal : RaisesOnly Refusal (notify xml frame wire now) := by
  refine RaisesOnly.get_bind fun self => ?_
  refine RaisesOnly.lift_bind raises_notifyDialog fun ⟨remote, cseq⟩ => ?_
  dsimp only
  split
  next last bytes hlast =>
    split_ifs
    · exact (infallible_pure _).raisesOnly
    · exact RaisesOnly.of_throw (by decide)
    · exact RaisesOnly.of_throw (by decide)
    · exact notifyNew_refusal remote cseq
  next => exact notifyNew_refusal remote cseq

/-- **A refused NOTIFY writes nothing**, whichever of its checks refuses it. -/
theorem notify_atomic : Atomic (notify xml frame wire now) := by
  refine Atomic.bind_readOnly readOnly_get fun self => ?_
  refine Atomic.bind_readOnly (readOnly_lift _) fun ⟨remote, cseq⟩ => ?_
  dsimp only
  split
  next last bytes hlast =>
    split_ifs
    · exact (infallible_pure _).atomic
    · exact (readOnly_throw _).atomic
    · exact (readOnly_throw _).atomic
    · exact notifyNew_atomic remote cseq
  next => exact notifyNew_atomic remote cseq

/-- The state after a NOTIFY was accepted. -/
def acceptNotify (self : RegEventSubscription) (snapshot : Snapshot) (remote target : Str)
    (routes : List Str) (cseq : ℕ) (wire : Bytes) (subscription : SubscriptionState)
    (effect : RegEventEffect) (now : ℕ) : RegEventSubscription :=
  (((self.recordNotify snapshot remote target routes cseq wire).recordExpires
    subscription.expires now).recordNeedFull effect now).recordEnd subscription.terminated effect

/-- The end of the lease after a NOTIFY. -/
def leaseAfterNotify (self : RegEventSubscription) (expires : Option ℕ) (now : ℕ) : Option ℕ :=
  match expires with
  | none => self.leaseDeadline
  | some expires =>
    some (self.leaseDeadline.elim (now + secs (min expires self.requestedLease)) fun old =>
      min old (now + secs (min expires self.requestedLease)))

theorem leaseAfterNotify_none : self.leaseAfterNotify none now = self.leaseDeadline := rfl

theorem leaseAfterNotify_some (expires : ℕ) : self.leaseAfterNotify (some expires) now =
    some (self.leaseDeadline.elim (now + secs (min expires self.requestedLease)) fun old =>
      min old (now + secs (min expires self.requestedLease))) := rfl

theorem recordNeedFull_needFull : self.recordNeedFull .needFull now =
      if 1 < self.fullRequests + 1 then
        { self with needFull := true, fullRequests := self.fullRequests + 1 }.disable
      else { self with needFull := true, fullRequests := self.fullRequests + 1, due := now } :=
  if_pos rfl

variable {remote : Str} {cseq : ℕ} {effect : RegEventEffect}

/-- Accepting a NOTIFY records it, shortens the lease, and may end the observation. -/
theorem acceptNotify_cases {snapshot : Snapshot} {target : Str} {routes : List Str}
    {subscription : SubscriptionState} :
    ∃ due needFull fullRequests, let heard : RegEventSubscription := { self with
        snapshot := snapshot, remoteTag := some remote, target := target
        dialogRoutes := self.dialogRoutes.or (some routes), lastNotify := some (cseq, wire)
        leaseDeadline := self.leaseAfterNotify subscription.expires now
        due := due, needFull := needFull, fullRequests := fullRequests }
      (self.acceptNotify snapshot remote target routes cseq wire subscription effect now = heard ∧
        effect.isTermination = false) ∨
      self.acceptNotify snapshot remote target routes cseq wire subscription effect now =
        heard.disable := by
  have hexpires : ∃ due, (self.recordNotify snapshot remote target routes cseq wire).recordExpires
      subscription.expires now = { self.recordNotify snapshot remote target routes cseq wire with
        leaseDeadline := self.leaseAfterNotify subscription.expires now, due := due } := by
    cases subscription.expires with
    | none => exact ⟨_, rfl⟩
    | some expires => exact ⟨_, rfl⟩
  obtain ⟨due, hexpires⟩ := hexpires
  rw [acceptNotify, hexpires]
  cases effect with
  | none =>
    refine ⟨due, self.needFull, self.fullRequests, ?_⟩
    cases hterminated : subscription.terminated with
    | false => exact Or.inl ⟨rfl, rfl⟩
    | true => exact Or.inr rfl
  | bindingTerminated reason retryAfter =>
    refine ⟨due, self.needFull, self.fullRequests, Or.inr ?_⟩
    rw [recordEnd, if_pos (by simp [RegEventEffect.isTermination])]
    rfl
  | needFull =>
    -- the second gap disables the observer by itself
    rw [recordNeedFull_needFull]
    split
    · refine ⟨due, true, self.fullRequests + 1, Or.inr ?_⟩
      cases hterminated : subscription.terminated with
      | false => rfl
      | true => rfl
    · refine ⟨now, true, self.fullRequests + 1, ?_⟩
      cases hterminated : subscription.terminated with
      | false => exact Or.inl ⟨rfl, rfl⟩
      | true => exact Or.inr rfl

/-- What was checked of a NOTIFY before it was accepted, and what follows from it. -/
structure Notified (xml : XmlReader) (sub : RegEventSubscription) (frame : Frame) (wire : Bytes)
    (now : ℕ) (effect : RegEventEffect) (next : RegEventSubscription) where
  remote : Str
  cseq : ℕ
  subscription : SubscriptionState
  document : Option Document
  target : Str
  routes : List Str
  raw : RegEventEffect
  dialog : sub.notifyDialog frame = .ok (remote, cseq)
  newer : ∀ last bytes, sub.lastNotify = some (last, bytes) → last < cseq
  listening : sub.listening now = true
  content : notifyContent xml frame = .ok (subscription, document)
  applied : (sub.applyDocument document).1 = .ok raw
  effect_eq : effect = withRetryAfter subscription.retryAfter raw
  next_eq : next = sub.acceptNotify (sub.applyDocument document).2 remote target routes cseq wire
    subscription effect now

theorem Notified.next_cases (h : Notified xml self frame wire now effect next) :
    ∃ due needFull fullRequests, let heard : RegEventSubscription := { self with
        snapshot := (self.applyDocument h.document).2, remoteTag := some h.remote
        target := h.target, dialogRoutes := self.dialogRoutes.or (some h.routes)
        lastNotify := some (h.cseq, wire)
        leaseDeadline := self.leaseAfterNotify h.subscription.expires now
        due := due, needFull := needFull, fullRequests := fullRequests }
      (next = heard ∧ effect.isTermination = false) ∨ next = heard.disable := by
  obtain ⟨due, needFull, fullRequests, hcases⟩ := acceptNotify_cases
  exact ⟨due, needFull, fullRequests, hcases.imp
    (fun ⟨heq, hterm⟩ => ⟨h.next_eq.trans heq, hterm⟩) h.next_eq.trans⟩

/-- What an accepted NOTIFY leaves in the record. -/
theorem Notified.recorded (h : Notified xml self frame wire now effect next) :
    next.lastNotify = some (h.cseq, wire) ∧ next.remoteTag = some h.remote ∧
      next.snapshot = (self.applyDocument h.document).2 ∧
      next.leaseDeadline = self.leaseAfterNotify h.subscription.expires now := by
  obtain ⟨due, needFull, fullRequests, hnext⟩ := h.next_cases
  rcases hnext with ⟨hnext, -⟩ | hnext
  all_goals exact ⟨congrArg lastNotify hnext, congrArg remoteTag hnext, congrArg snapshot hnext,
    congrArg leaseDeadline hnext⟩

theorem notifyNew_eq_ok (hdialog : self.notifyDialog frame = .ok (remote, cseq))
    (hnewer : ∀ last bytes, self.lastNotify = some (last, bytes) → last < cseq)
    (h : call (notifyNew xml frame wire now remote cseq) self = (.ok effect, next)) :
    Nonempty (Notified xml self frame wire now effect next) := by
  obtain ⟨hlisten, h⟩ := call_guard_eq_ok h
  obtain ⟨⟨subscription, document⟩, hcontent, h⟩ := call_lift_bind_eq_ok h
  obtain ⟨contactValue, -, h⟩ := call_lift_bind_eq_ok h
  obtain ⟨contact, -, h⟩ := call_lift_bind_eq_ok h
  obtain ⟨routes, -, h⟩ := call_lift_bind_eq_ok h
  obtain ⟨-, h⟩ := call_guard_eq_ok h
  obtain ⟨raw, happlied, h⟩ := call_lift_bind_eq_ok h
  cases h
  exact ⟨{
    remote, cseq, subscription, document, target := contact.uri, routes, raw
    dialog := hdialog
    newer := hnewer
    listening := by simpa using hlisten
    content := hcontent
    applied := orStatus_eq_ok.1 happlied
    effect_eq := rfl
    next_eq := rfl }⟩

/-- An accepted NOTIFY repeats the last one, or passed every check. -/
theorem notify_eq_ok (h : call (notify xml frame wire now) self = (.ok effect, next)) :
    ((∃ cseq, self.lastNotify = some (cseq, wire)) ∧ effect = .none ∧ next = self) ∨
      Nonempty (Notified xml self frame wire now effect next) := by
  rw [notify, call_get_bind] at h
  obtain ⟨⟨remote, cseq⟩, hdialog, h⟩ := call_lift_bind_eq_ok h
  dsimp only at h
  split at h
  next last bytes hlast =>
    split_ifs at h with heq hbytes hlt
    · cases h
      exact Or.inl ⟨⟨last, by rw [hlast, hbytes]⟩, rfl, rfl⟩
    · cases h
    · cases h
    · refine Or.inr (notifyNew_eq_ok hdialog ?_ h)
      rintro last' bytes' heq'
      rw [hlast] at heq'
      cases heq'
      omega
  next hlast =>
    refine Or.inr (notifyNew_eq_ok hdialog ?_ h)
    intro last bytes heq
    rw [hlast] at heq
    cases heq

/-! ## All calls -/

/-- Every outcome of a call: the answer and the state it leaves. -/
inductive Transition (xml : XmlReader) (self : RegEventSubscription) :
    Call → Answer → RegEventSubscription → Prop
  | pollIdle {now : ℕ} : Transition xml self (.poll now) (.action .idle) self
  | pollBegin {now : ℕ} : Transition xml self (.poll now) (.action .begin) self
  | pollExpired {now : ℕ} : Transition xml self (.poll now) (.action .idle) self.disable
  | retransmit {now interval : ℕ} {tx : Transaction} :
      self.transaction = some tx → interval = min (tx.interval * 2) t2 →
      Transition xml self (.poll now) (.action (.retransmit tx.wire))
        { self with transaction := some { tx with interval, resendAt := some (now + interval) } }
  | refusedEarly {args : RequestArgs} {e : ImsError} :
      Transition xml self (.buildRequest args) (.built (.error e)) self
  | refusedLate {args : RequestArgs} {e : ImsError} :
      self.mayBuild args.now = true →
      Transition xml self (.buildRequest args) (.built (.error e)) { self with
        requestedLease := min requestedLeaseMax args.registration.leaseExpiresSeconds }
  | built {args : RequestArgs} {auth : Option SipHeader} {headers : List SipHeader} {branch : Str} :
      self.mayBuild args.now = true →
      authorizationHeader self.authPending args.authorization = .ok auth →
      Transition xml self (.buildRequest args)
        (.built (.ok (self.subscribeRequest args headers (self.cseq + 1) branch).build))
        ({ self with
          requestedLease := min requestedLeaseMax args.registration.leaseExpiresSeconds
          }.beginTransaction args (self.subscribeRequest args headers (self.cseq + 1) branch).build
            branch (self.cseq + 1))
  | disable : Transition xml self .disable .done self.disable
  | other {wire : Bytes} {now : ℕ} :
      Transition xml self (.onFrame wire now) (.frame .other) self
  | refusedNotify {wire : Bytes} {now status : ℕ} :
      Refusal status →
      Transition xml self (.onFrame wire now) (.frame (.notify status .none)) self
  | repeatedNotify {wire : Bytes} {now cseq : ℕ} :
      self.lastNotify = some (cseq, wire) →
      Transition xml self (.onFrame wire now) (.frame (.notify 200 .none)) self
  | notified {wire : Bytes} {now : ℕ} {frame : Frame} {effect : RegEventEffect}
      {next : RegEventSubscription} :
      Frame.parse wire = .ok frame → (ascii "NOTIFY ").isPrefixOf wire = true →
      self.takesNotify wire frame = true → Notified xml self frame wire now effect next →
      Transition xml self (.onFrame wire now) (.frame (.notify 200 effect)) next
  | failedResponse {wire : Bytes} {now status : ℕ} :
      Transition xml self (.onFrame wire now) (.frame (.response status)) self.disable
  | proceeding {wire : Bytes} {now status : ℕ} {tx : Transaction} :
      self.transaction = some tx → 100 ≤ status ∧ status < 200 →
      Transition xml self (.onFrame wire now) (.frame (.response status)) { self with
        transaction := some
          { tx with interval := t2, resendAt := tx.resendAt.map fun _ => now + t2 } }
  | challenged {wire : Bytes} {now status : ℕ} {frame : Frame} {challenge : DigestChallenge} :
      self.disabled = false → self.responseChallenge frame status = .ok challenge →
      Transition xml self (.onFrame wire now) (.frame (.authChallenge challenge))
        (self.recordChallenge challenge now)
  | accepted {wire : Bytes} {now status : ℕ} {frame : Frame} {accepted : Accepted} :
      self.disabled = false → status = 200 ∨ status = 202 →
      self.responseAccepted frame = .ok accepted →
      Transition xml self (.onFrame wire now) (.frame (.response status))
        (self.recordAccepted accepted now)

theorem poll_transition (now : ℕ) :
    Transition xml self (.poll now) (.action (self.poll now).1) (self.poll now).2 := by
  rw [poll]
  split
  · exact .pollIdle
  split
  · exact .pollExpired
  split
  next tx htx =>
    split
    · exact .retransmit htx rfl
    · exact .pollIdle
  next =>
    split
    · exact .pollBegin
    · exact .pollIdle

theorem response_transition (frame : Frame) :
    Transition xml self (.onFrame wire now) (.frame (response frame now self).1)
      (response frame now self).2 := by
  rw [response]
  split
  next => exact .other
  next tx htx =>
    dsimp only
    split_ifs with hmatches hlate hproceeding hchallenge haccepted
    · exact .other
    · exact .failedResponse
    · exact .proceeding htx hproceeding
    · -- a challenge
      have hon : self.disabled = false := by simp_all
      split
      next challenge hok => exact .challenged hon hok
      next => exact .failedResponse
    · -- an acceptance
      have hon : self.disabled = false := by simp_all
      split
      next accepted hok => exact .accepted hon haccepted hok
      next => exact .failedResponse
    · exact .failedResponse

theorem onFrame_transition :
    Transition xml self (.onFrame wire now) (.frame (onFrame xml wire now self).1)
      (onFrame xml wire now self).2 := by
  rw [onFrame]
  split
  next =>
    split_ifs
    · exact .refusedNotify (by decide)
    · exact .other
  next frame hparse =>
    split_ifs with hnotify hskip hstatus
    · exact .other
    · split
      next effect next hcall =>
        rcases notify_eq_ok hcall with ⟨⟨cseq, hlast⟩, rfl, rfl⟩ | ⟨⟨hnotified⟩⟩
        · exact .repeatedNotify hlast
        · exact .notified hparse hnotify (by simpa using hskip) hnotified
      next status next hcall =>
        obtain rfl := notify_atomic _ _ _ hcall
        exact .refusedNotify (notify_refusal _ _ _ hcall)
    · exact response_transition frame
    · exact .other

theorem buildRequest_transition (args : RequestArgs) :
    Transition xml self (.buildRequest args) (.built ((buildRequest args).call self).1)
      ((buildRequest args).call self).2 := by
  rw [buildRequest, call_get_bind, call_guard]
  split
  · exact .refusedEarly
  next hmay =>
    rw [Bool.not_eq_true', Bool.not_eq_false] at hmay
    rw [call_lift_bind]
    split
    next auth hauth =>
      rw [call_guard]
      split
      · exact .refusedEarly
      rw [call_lift_bind]
      split
      next routes hroutes =>
        -- the lease is written here, a later refusal leaves it written
        rw [call_modify_bind, call_get_bind, call_guard]
        split
        · exact .refusedLate hmay
        split
        · exact .refusedLate hmay
        rw [call_lift_bind]
        split
        next cseq hcseq =>
          rw [call_lift_bind]
          split
          next id hid =>
            rw [call_guard]
            split
            · exact .refusedLate hmay
            rw [nextCseq] at hcseq
            split at hcseq
            · cases hcseq
              exact .built hmay hauth
            · cases hcseq
          next => exact .refusedLate hmay
        next => exact .refusedLate hmay
      next => exact .refusedEarly
    next => exact .refusedEarly

/-- **The list of outcomes is complete.** -/
theorem step_transition (call : Call) :
    Transition xml self call (step xml self call).1 (step xml self call).2 := by
  cases call with
  | poll now => exact poll_transition now
  | buildRequest args => exact buildRequest_transition args
  | disable => exact .disable
  | onFrame wire now => exact onFrame_transition

end RegEventSubscription

end RegEvent

end SimMaster
