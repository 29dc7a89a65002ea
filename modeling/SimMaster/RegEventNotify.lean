import SimMaster.RegEventStep

/-!
# NOTIFY requests are handled atomically

A NOTIFY that is not accepted leaves the subscription as it was, and so does the repetition of the
last one accepted, which is accepted again. The second part needs what every run keeps: the identity
of the dialog does not change once it is established (`Transition.dialog`), so the bytes of the last
accepted NOTIFY pass the checks of the dialog again (`Repeatable`).
-/

namespace SimMaster

namespace RegEvent

namespace RegEventSubscription

open Rust Method

variable {xml : XmlReader} {frame : Frame} {wire : Bytes} {now : ℕ}
  {self next : RegEventSubscription}

/-! ## The identity of the dialog -/

variable {cseq : ℕ}

/-- The checks of the dialog admit the recorded remote tag only, and pass again once the tag they
found is recorded. -/
theorem notifyDialog_eq_ok {remote : Str} (h : self.notifyDialog frame = .ok (remote, cseq)) :
    self.remoteTag.any (· != remote) = false ∧
    ∀ next : RegEventSubscription, next.binding = self.binding → next.callId = self.callId →
      next.localTag = self.localTag → next.remoteTag = some remote →
        next.notifyDialog frame = .ok (remote, cseq) := by
  unfold notifyDialog at h
  obtain ⟨eventHeader, h1, h⟩ := bind_eq_ok.1 h
  obtain ⟨eventValue, h2, h⟩ := bind_eq_ok.1 h
  obtain ⟨⟨event, params⟩, h3, h⟩ := bind_eq_ok.1 h
  obtain ⟨hevent, h⟩ := guard_eq_ok h
  obtain ⟨callId, h4, h⟩ := bind_eq_ok.1 h
  obtain ⟨hcall, h⟩ := guard_eq_ok h
  obtain ⟨fromValue, h5, h⟩ := bind_eq_ok.1 h
  obtain ⟨fromAddress, h6, h⟩ := bind_eq_ok.1 h
  obtain ⟨toValue, h7, h⟩ := bind_eq_ok.1 h
  obtain ⟨toAddress, h8, h⟩ := bind_eq_ok.1 h
  obtain ⟨tag, h9, h⟩ := bind_eq_ok.1 h
  obtain ⟨remote', h10, h⟩ := bind_eq_ok.1 h
  obtain ⟨hdialog, h⟩ := guard_eq_ok h
  obtain ⟨⟨cseq', method⟩, h11, h⟩ := bind_eq_ok.1 h
  obtain ⟨hmethod, h⟩ := guard_eq_ok h
  cases h
  simp only [not_or, not_not, Bool.not_eq_true, ne_eq] at hdialog
  obtain ⟨hto, hfrom, hlocal, hremote, huri⟩ := hdialog
  refine ⟨hremote, fun next hbinding hid htag hnext => ?_⟩
  rw [notifyDialog, h1, ok_bind, h2, ok_bind, h3, ok_bind]
  dsimp only
  rw [if_neg hevent, h4, ok_bind, if_neg (by rw [hid]; exact hcall), h5, ok_bind, h6, ok_bind, h7,
    ok_bind, h8, ok_bind, h9, ok_bind, h10, ok_bind, if_neg, h11, ok_bind]
  · exact if_neg hmethod
  · simp [hbinding, htag, hnext, hto, hfrom, hlocal, huri]

/-- An accepted response has the tag that is known, and grants no more than was asked for. -/
theorem responseAccepted_eq_ok {accepted : Accepted}
    (h : self.responseAccepted frame = .ok accepted) :
    self.remoteTag.any (· != accepted.tag) = false ∧ accepted.expires ≤ self.requestedLease := by
  unfold responseAccepted at h
  obtain ⟨toValue, -, h⟩ := bind_eq_ok.1 h
  obtain ⟨toAddress, -, h⟩ := bind_eq_ok.1 h
  obtain ⟨tagValue, -, h⟩ := bind_eq_ok.1 h
  obtain ⟨tag, -, h⟩ := bind_eq_ok.1 h
  obtain ⟨hremote, h⟩ := guard_eq_ok h
  obtain ⟨contactValue, -, h⟩ := bind_eq_ok.1 h
  obtain ⟨contact, -, h⟩ := bind_eq_ok.1 h
  obtain ⟨routes, -, h⟩ := bind_eq_ok.1 h
  obtain ⟨-, h⟩ := guard_eq_ok h
  obtain ⟨expiresValue, -, h⟩ := bind_eq_ok.1 h
  obtain ⟨expires, -, h⟩ := bind_eq_ok.1 h
  cases h
  exact ⟨by simpa using hremote, min_le_right _ _⟩

theorem eq_of_any_ne_eq_false {recorded : Option Str} {tag found : Str}
    (h : recorded.any (· != found) = false) (htag : recorded = some tag) : found = tag := by
  rw [htag] at h
  have heq : tag = found := by simpa using h
  exact heq.symm

variable {call : Call} {answer : Answer}

/-- No call changes the binding, the call id, the local tag, or the remote tag once there is one. -/
theorem Transition.dialog (h : Transition xml self call answer next) :
    next.binding = self.binding ∧ next.callId = self.callId ∧ next.localTag = self.localTag ∧
      ∀ tag, self.remoteTag = some tag → next.remoteTag = some tag := by
  cases h with
  | built =>
    rw [beginTransaction_eq]
    exact ⟨rfl, rfl, rfl, fun _ h => h⟩
  | notified _ _ _ hn =>
    obtain ⟨due, needFull, fullRequests, hnext⟩ := hn.next_cases
    have htag : ∀ tag, self.remoteTag = some tag → some hn.remote = some tag := fun tag h =>
      congrArg some (eq_of_any_ne_eq_false (notifyDialog_eq_ok hn.dialog).1 h)
    rcases hnext with ⟨hnext, -⟩ | hnext <;> rw [hnext] <;> exact ⟨rfl, rfl, rfl, htag⟩
  | accepted _ _ hok =>
    exact ⟨rfl, rfl, rfl, fun tag h =>
      congrArg some (eq_of_any_ne_eq_false (responseAccepted_eq_ok hok).1 h)⟩
  | _ => exact ⟨rfl, rfl, rfl, fun _ h => h⟩

/-! ## The last accepted NOTIFY -/

/-- The NOTIFY of a call that was answered with 200. -/
def acceptedNotify : Call × Answer → Option Bytes
  | (.onFrame wire _, .frame (.notify 200 _)) => some wire
  | _ => none

theorem acceptedNotify_refusal {status : ℕ} (h : Refusal status) (effect : RegEventEffect) :
    acceptedNotify (.onFrame wire now, .frame (.notify status effect)) = none := by
  rw [acceptedNotify]
  rintro wire now effect ⟨⟩
  exact absurd h (by decide)

/-- The last NOTIFY answered with 200. -/
def lastAccepted (history : List (Call × Answer)) : Option Bytes :=
  (history.filterMap acceptedNotify).getLast?

/-- The bytes of the last accepted NOTIFY come to the check for a repetition again. -/
def Repeatable (self : RegEventSubscription) : Prop :=
  ∀ cseq wire, self.lastNotify = some (cseq, wire) → ∃ frame remote, Frame.parse wire = .ok frame ∧
    (ascii "NOTIFY ").isPrefixOf wire = true ∧ self.takesNotify wire frame = true ∧
    self.notifyDialog frame = .ok (remote, cseq) ∧ self.remoteTag = some remote

/-- What every run keeps of its last accepted NOTIFY. -/
structure NotifyInvariant (history : List (Call × Answer)) (sub : RegEventSubscription) : Prop where
  last : lastAccepted history = sub.lastNotify.map (·.2)
  repeatable : sub.Repeatable

theorem Repeatable.of_same_notify (h : self.Repeatable) (hlast : next.lastNotify = self.lastNotify)
    (hbinding : next.binding = self.binding) (hid : next.callId = self.callId)
    (htag : next.localTag = self.localTag)
    (hremote : ∀ tag, self.remoteTag = some tag → next.remoteTag = some tag) : next.Repeatable := by
  intro cseq wire hn
  rw [hlast] at hn
  obtain ⟨frame, remote, hparse, hnotify, htakes, hdialog, hr⟩ := h cseq wire hn
  refine ⟨frame, remote, hparse, hnotify, ?_, ?_, hremote _ hr⟩
  · rwa [takesNotify, hid]
  · exact (notifyDialog_eq_ok hdialog).2 next hbinding hid htag (hremote _ hr)

theorem lastAccepted_concat (history : List (Call × Answer)) (entry : Call × Answer) :
    lastAccepted (history ++ [entry]) = (acceptedNotify entry).or (lastAccepted history) := by
  rw [lastAccepted, List.filterMap_append, List.getLast?_append]
  cases h : acceptedNotify entry <;> simp [h, lastAccepted]

variable {binding : RegEventBinding} {callEntropy tagEntropy : Option Bytes}

theorem new_lastNotify {now : ℕ}
    (h : new binding now callEntropy tagEntropy = .ok self) : self.lastNotify = none := by
  unfold new at h
  obtain ⟨callId, -, h⟩ := bind_eq_ok.1 h
  obtain ⟨localTag, -, h⟩ := bind_eq_ok.1 h
  cases h
  rfl

/-- The record of the last accepted NOTIFY changes with the NOTIFY requests that are accepted. -/
theorem Transition.lastNotify (h : Transition xml self call answer next) :
    (acceptedNotify (call, answer) = none ∧ next.lastNotify = self.lastNotify) ∨
    (∃ wire cseq, acceptedNotify (call, answer) = some wire ∧ next.lastNotify = some (cseq, wire) ∧
      (next = self ∨ ∃ frame remote, Frame.parse wire = .ok frame ∧
        (ascii "NOTIFY ").isPrefixOf wire = true ∧ self.takesNotify wire frame = true ∧
        self.notifyDialog frame = .ok (remote, cseq) ∧ next.remoteTag = some remote)) := by
  cases h with
  | built =>
    refine Or.inl ⟨rfl, ?_⟩
    rw [beginTransaction_eq]
  | refusedNotify hrefusal => exact Or.inl ⟨acceptedNotify_refusal hrefusal _, rfl⟩
  | @repeatedNotify wire now cseq hlast => exact Or.inr ⟨wire, cseq, rfl, hlast, Or.inl rfl⟩
  | @notified wire now frame effect _ hparse hprefix htakes hn =>
    exact Or.inr ⟨wire, hn.cseq, rfl, hn.recorded.1, Or.inr ⟨frame, hn.remote, hparse, hprefix,
      htakes, hn.dialog, hn.recorded.2.1⟩⟩
  | _ => exact Or.inl ⟨rfl, rfl⟩

theorem notifyInvariant_run (xml : XmlReader) {start : ℕ}
    (h : new binding start callEntropy tagEntropy = .ok self)
    (calls : List Call) :
    NotifyInvariant (Machine.trace (step xml) self calls) (Machine.run (step xml) self calls) := by
  have hnone := new_lastNotify h
  have hinitial : NotifyInvariant [] self := by
    refine ⟨by rw [hnone]; rfl, fun cseq wire hlast => ?_⟩
    rw [hnone] at hlast
    cases hlast
  refine Machine.history_invariant (step xml) hinitial ?_ calls
  rintro history sub call ⟨hlast, hrepeatable⟩
  have htrans : Transition xml sub call _ _ := step_transition call
  obtain ⟨hbinding, hid, htag, hremote⟩ := htrans.dialog
  rcases htrans.lastNotify with ⟨hnot, hsame⟩ | ⟨wire, cseq, haccepted, hnow, hhow⟩
  · refine ⟨?_, hrepeatable.of_same_notify hsame hbinding hid htag hremote⟩
    rw [lastAccepted_concat, hnot, Option.none_or, hlast, hsame]
  · refine ⟨by rw [lastAccepted_concat, haccepted, hnow]; rfl, ?_⟩
    rcases hhow with hsame | ⟨frame, remote, hparse, hprefix, htakes, hdialog, hr⟩
    · rwa [hsame]
    · -- the NOTIFY just accepted passes its own checks again
      intro cseq' wire' hlast'
      rw [hnow] at hlast'
      cases hlast'
      refine ⟨frame, remote, hparse, hprefix, by rwa [takesNotify, hid], ?_, hr⟩
      exact (notifyDialog_eq_ok hdialog).2 _ hbinding hid htag hr

/-- A repetition of the last accepted NOTIFY is accepted and changes nothing. -/
theorem Repeatable.onFrame (h : self.Repeatable) (hlast : self.lastNotify = some (cseq, wire)) :
    onFrame xml wire now self = (.notify 200 .none, self) := by
  obtain ⟨frame, remote, hparse, hprefix, htakes, hdialog, -⟩ := h cseq wire hlast
  have hcall : call (notify xml frame wire now) self = (.ok .none, self) := by
    rw [notify, call_get_bind, call_lift_bind, hdialog]
    dsimp only
    rw [hlast]
    dsimp only
    rw [if_pos rfl, if_pos rfl, call_pure]
  rw [RegEventSubscription.onFrame, hparse]
  dsimp only
  rw [if_pos hprefix, htakes, hcall]
  rfl

/-- **NOTIFY handling is atomic.** After any run of calls and for every frame and instant, a NOTIFY
that is not answered with 200 leaves the subscription as it was; and a frame that repeats the last
NOTIFY answered with 200 is answered with 200 and no effect, and leaves it as it was, too. -/
theorem onFrame_notify_atomic (xml : XmlReader) {binding : RegEventBinding} {start : ℕ}
    {callEntropy tagEntropy : Option Bytes} {initial : RegEventSubscription}
    (hnew : new binding start callEntropy tagEntropy = .ok initial) (calls : List Call)
    (wire : Bytes) (now : ℕ) : let self := Machine.run (step xml) initial calls
    (∀ status effect, (onFrame xml wire now self).1 = .notify status effect → status ≠ 200 →
      (onFrame xml wire now self).2 = self) ∧
    (lastAccepted (Machine.trace (step xml) initial calls) = some wire →
      onFrame xml wire now self = (.notify 200 .none, self)) := by
  intro self
  constructor
  · intro status effect hanswer hstatus
    have htrans : Transition xml self (.onFrame wire now) _ _ := onFrame_transition
    rw [hanswer] at htrans
    generalize (onFrame xml wire now self).2 = next at htrans ⊢
    cases htrans with
    | refusedNotify => rfl
    | repeatedNotify => rfl
    | notified => exact absurd rfl hstatus
  · intro haccepted
    obtain ⟨hlast, hrepeatable⟩ := notifyInvariant_run xml hnew calls
    rw [haccepted] at hlast
    obtain ⟨⟨cseq, bytes⟩, hnotify, rfl⟩ := Option.map_eq_some_iff.1 hlast.symm
    exact hrepeatable.onFrame hnotify

/-! ## A sample run -/

def sampleBinding : RegEventBinding where
  aor := "sip:a@h".toList
  contactUri := "sip:c@h".toList
  instanceId := none
  regId := none

def sampleEntropy : Option Bytes := some (List.replicate 16 0xab)

def sampleId : String := "abababababababababababababababab"

def sampleStart : RegEventSubscription where
  binding := sampleBinding
  callId := sampleId.toList ++ "@reg-event.invalid".toList
  localTag := sampleId.toList
  remoteTag := none
  target := sampleBinding.aor
  dialogRoutes := none
  cseq := 0
  transaction := none
  authPending := none
  authRounds := 0
  authDeadline := none
  due := 0
  leaseDeadline := none
  requestedLease := 3600
  disabled := false
  lastNotify := none
  snapshot := {}
  fullRequests := 0
  needFull := false
  authScope := none

theorem new_sampleStart : new sampleBinding 0 sampleEntropy sampleEntropy = .ok sampleStart := by
  decide +kernel

/-- A request over UDP under a registration with the given lease. -/
def sampleArgs (lease now : ℕ) : RequestArgs where
  route := {
    localAddr := { ip := .v4 192 0 2 20, port := 5062 }
    pcscfAddr := { ip := .v4 192 0 2 1, port := 5060 }
    transport := .udp }
  registration := { leaseExpiresSeconds := lease, serviceRoute := none }
  userAgent := "ua".toList
  accessHeaders := []
  authorization := none
  now := now
  entropy := sampleEntropy

/-- A NOTIFY in the dialog of `sampleStart`. -/
def sampleNotify (cseq subscription length : String) (body : Bytes) : Bytes :=
  ascii "NOTIFY sip:c@h SIP/2.0\r\nVia: SIP/2.0/UDP h;branch=b\r\nFrom: <sip:a@h>;tag=r\r\n" ++
  ascii "To: <sip:a@h>;tag=" ++ ascii sampleId ++ ascii "\r\nCall-ID: " ++ ascii sampleId ++
  ascii "@reg-event.invalid\r\nCSeq: " ++ ascii cseq ++ ascii " NOTIFY\r\nContact: <sip:n@h>\r\n" ++
  ascii "Event: reg\r\nSubscription-State: " ++ ascii subscription ++
  ascii "\r\nContent-Type: application/reginfo+xml\r\nContent-Length: " ++ ascii length ++
  ascii "\r\n\r\n" ++ body

/-- The tokenizer on an empty body, the only one the sample below has. -/
def emptyXml : XmlReader := fun _ => []

/-- The final NOTIFY of a subscription, and a malformed one after it. -/
theorem onFrame_notify_atomic_sample : let final := sampleNotify "1" "terminated" "0" []
    let malformed := ascii "NOTIFY sip:c@h SIP/2.0\r\nEvent: reg\r\n"
    let self := Machine.run (step emptyXml) sampleStart
      [.buildRequest (sampleArgs 600 0), .onFrame final 5]
    (onFrame emptyXml malformed 9 self).2 = self ∧
      onFrame emptyXml final 9 self = (.notify 200 .none, self) := by
  intro final malformed self
  have hrun := onFrame_notify_atomic emptyXml new_sampleStart
    [.buildRequest (sampleArgs 600 0), .onFrame final 5]
  constructor
  · refine (hrun malformed 9).1 400 .none ?_ (by decide)
    have hparse : (Frame.parse malformed).toOption.isNone = true := by decide +kernel
    have hreg : ((ascii "NOTIFY ").isPrefixOf malformed && isRegNotify malformed) = true := by
      decide +kernel
    rw [onFrame]
    cases h : Frame.parse malformed with
    | error e => exact congrArg Prod.fst (if_pos hreg)
    | ok frame =>
      rw [h] at hparse
      cases hparse
  · exact (hrun final 9).2 (by decide +kernel)

end RegEventSubscription

end RegEvent

end SimMaster
