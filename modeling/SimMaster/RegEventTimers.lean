import SimMaster.RegEventNotify

/-!
# The timers of the observer

Five optional instants drive the observer: the end of a transaction, its next retransmission, the
end of the wait for an authorization, the renewal and the end of the lease. `nextDeadline` and
`poll` combine them in two different ways; under `TimerInvariant`, which every run keeps, they
agree.
-/

namespace SimMaster

namespace RegEvent

namespace RegEventSubscription

open Rust Option Bool

variable {xml : XmlReader} {now : ℕ} {self next : RegEventSubscription}

/-! ## The invariant -/

/-- A challenge waits for its answer exactly while its deadline is set, no transaction is open
meanwhile, and retransmissions move forward. -/
structure TimerInvariant (sub : RegEventSubscription) : Prop where
  auth : sub.authPending.isSome = sub.authDeadline.isSome
  exclusive : sub.transaction.isSome = true → sub.authDeadline = none
  interval : ∀ tx, sub.transaction = some tx → 0 < tx.interval

theorem TimerInvariant.of_no_timer (htx : self.transaction = none)
    (hpending : self.authPending = none) (hdeadline : self.authDeadline = none) :
    TimerInvariant self where
  auth := by rw [hpending, hdeadline]; rfl
  exclusive := fun _ => hdeadline
  interval := by rw [htx]; rintro tx ⟨⟩

theorem timerInvariant_disable : TimerInvariant self.disable := .of_no_timer rfl rfl rfl

theorem t2_pos : 0 < t2 := by decide

theorem timerInvariant_beginTransaction {args : RequestArgs} {wire : Bytes} {branch : Str}
    {cseq : ℕ} : TimerInvariant (self.beginTransaction args wire branch cseq) := by
  refine ⟨rfl, fun _ => rfl, fun tx htx => ?_⟩
  rw [← some.inj htx]
  exact (by decide : 0 < t1)

/-- The invariant reads three fields. -/
theorem TimerInvariant.of_same (h : TimerInvariant self) (htx : next.transaction = self.transaction)
    (hpending : next.authPending = self.authPending)
    (hdeadline : next.authDeadline = self.authDeadline) : TimerInvariant next where
  auth := by rw [hpending, hdeadline, h.auth]
  exclusive := by rw [htx, hdeadline]; exact h.exclusive
  interval := by rw [htx]; exact h.interval

variable {tx : Transaction}

/-- An open transaction may be replaced by another one. -/
theorem TimerInvariant.of_transaction (h : TimerInvariant self) {tx' : Transaction}
    (htx : self.transaction = some tx) (hinterval : 0 < tx'.interval) :
    TimerInvariant { self with transaction := some tx' } where
  auth := h.auth
  exclusive := fun _ => h.exclusive (by rw [htx]; rfl)
  interval := by
    rintro tx'' ⟨⟩
    exact hinterval

theorem Transition.timerInvariant {call : Call} {answer : Answer}
    (h : Transition xml self call answer next) (hinv : TimerInvariant self) :
    TimerInvariant next := by
  cases h with
  | pollExpired => exact timerInvariant_disable
  | disable => exact timerInvariant_disable
  | failedResponse => exact timerInvariant_disable
  | retransmit htx hinterval =>
    refine hinv.of_transaction htx ?_
    have hpos := hinv.interval _ htx
    rw [hinterval]
    exact lt_min (by omega) t2_pos
  | proceeding htx _ => exact hinv.of_transaction htx t2_pos
  | built => exact timerInvariant_beginTransaction
  | challenged =>
    refine ⟨rfl, ?_, ?_⟩
    · rintro ⟨⟩
    · rintro tx ⟨⟩
  | accepted =>
    refine ⟨hinv.auth, ?_, ?_⟩
    · rintro ⟨⟩
    · rintro tx ⟨⟩
  | notified _ _ _ hn =>
    obtain ⟨due, needFull, fullRequests, hnext⟩ := hn.next_cases
    rcases hnext with ⟨hnext, -⟩ | hnext
    · rw [hnext]
      exact hinv.of_same rfl rfl rfl
    · rw [hnext]
      exact timerInvariant_disable
  | _ => exact hinv.of_same rfl rfl rfl

theorem new_no_timer {binding : RegEventBinding} {start : ℕ} {callEntropy tagEntropy : Option Bytes}
    (h : new binding start callEntropy tagEntropy = .ok self) :
    self.transaction = none ∧ self.authPending = none ∧ self.authDeadline = none := by
  obtain ⟨callId, -, h⟩ := bind_eq_ok.1 h
  obtain ⟨localTag, -, h⟩ := bind_eq_ok.1 h
  cases h
  exact ⟨rfl, rfl, rfl⟩

theorem Reachable.timerInvariant (h : Reachable xml self) : TimerInvariant self := by
  obtain ⟨binding, start, callEntropy, tagEntropy, initial, calls, hnew, rfl⟩ := h
  obtain ⟨htx, hpending, hdeadline⟩ := new_no_timer hnew
  exact Machine.run_invariant (step xml) (.of_no_timer htx hpending hdeadline)
    (fun _ call hinv => (step_transition call).timerInvariant hinv) calls

/-! ## The next deadline -/

/-- The deadline of what the observer waits for, the lease apart. -/
def pendingDeadline (self : RegEventSubscription) : ℕ :=
  match self.transaction with
  | some tx => min (tx.resendAt.getD tx.deadline) tx.deadline
  | none => self.authDeadline.getD self.due

theorem nextDeadline_of_disabled (h : self.disabled = true) : self.nextDeadline = none := by
  rw [nextDeadline, if_pos h]

theorem nextDeadline_of_enabled (h : self.disabled = false) :
    self.nextDeadline = some (self.leaseDeadline.elim self.pendingDeadline fun expiry =>
      min expiry self.pendingDeadline) := by
  rw [nextDeadline, h]
  rfl

theorem nextDeadline_eq_none_iff : self.nextDeadline = none ↔ self.disabled = true := by
  cases h : self.disabled with
  | true => simp [nextDeadline_of_disabled h]
  | false => simp [nextDeadline_of_enabled h]

variable {deadline t : ℕ}

/-- Before the deadline neither the lease nor what the observer waits for has come. -/
theorem lt_nextDeadline (h : self.nextDeadline = some deadline) (ht : t < deadline) :
    reached self.leaseDeadline t = false ∧ t < self.pendingDeadline := by
  have hon : self.disabled = false := by
    rw [← not_eq_true, ← nextDeadline_eq_none_iff, h]
    simp
  rw [nextDeadline_of_enabled hon] at h
  cases hlease : self.leaseDeadline with
  | none =>
    rw [hlease] at h
    cases h
    exact ⟨rfl, ht⟩
  | some expiry =>
    rw [hlease] at h
    cases h
    rw [elim_some] at ht
    exact ⟨by rw [reached_some, decide_eq_false_iff_not]; omega, by omega⟩

/-- At the deadline the lease ends or something the observer waits for has come. -/
theorem reached_nextDeadline (h : self.nextDeadline = some deadline) :
    reached self.leaseDeadline deadline = true ∨ deadline = self.pendingDeadline := by
  have hon : self.disabled = false := by
    rw [← not_eq_true, ← nextDeadline_eq_none_iff, h]
    simp
  rw [nextDeadline_of_enabled hon] at h
  cases hlease : self.leaseDeadline with
  | none =>
    rw [hlease] at h
    cases h
    exact Or.inr rfl
  | some expiry =>
    rw [hlease] at h
    cases h
    rw [elim_some, reached_some, decide_eq_true_iff]
    omega

/-! ## Polling -/

/-- The condition under which a poll ends the observation. -/
def expired (self : RegEventSubscription) (now : ℕ) : Bool :=
  reached self.leaseDeadline now || reached self.authDeadline now ||
    reached (self.transaction.map (·.deadline)) now

theorem poll_of_expired (hon : self.disabled = false) (h : self.expired now = true) :
    self.poll now = (.idle, self.disable) := by
  rw [poll, hon]
  exact if_pos h

theorem poll_of_transaction (hon : self.disabled = false) (h : self.expired now = false)
    (htx : self.transaction = some tx) :
    self.poll now = if reached tx.resendAt now then
      (.retransmit tx.wire, { self with transaction := some { tx with
        interval := min (tx.interval * 2) t2, resendAt := some (now + min (tx.interval * 2) t2) } })
      else (.idle, self) := by
  rw [expired] at h
  rw [poll, hon, h]
  simp only [false_eq_true, if_false, htx]

theorem poll_of_no_transaction (hon : self.disabled = false) (h : self.expired now = false)
    (htx : self.transaction = none) :
    self.poll now = if self.authPending.isNone && self.due ≤ now then (.begin, self)
      else (.idle, self) := by
  rw [expired] at h
  rw [poll, hon, h]
  simp only [false_eq_true, if_false, htx]

theorem poll_before (hinv : TimerInvariant self) (hon : self.disabled = false)
    (hlease : reached self.leaseDeadline t = false) (ht : t < self.pendingDeadline) :
    self.poll t = (.idle, self) := by
  cases htx : self.transaction with
  | some tx =>
    have hauth : self.authDeadline = none := hinv.exclusive (by rw [htx]; rfl)
    rw [pendingDeadline, htx] at ht
    dsimp only at ht
    have hexpired : self.expired t = false := by
      simp only [expired, hlease, hauth, htx, map_some, reached_none, reached_some,
        Bool.false_or, decide_eq_false_iff_not]
      omega
    rw [poll_of_transaction hon hexpired htx, if_neg]
    cases hresend : tx.resendAt with
    | none => simp
    | some resend =>
      rw [hresend, getD_some] at ht
      rw [reached_some, decide_eq_true_iff]
      omega
  | none =>
    rw [pendingDeadline, htx] at ht
    dsimp only at ht
    cases hauth : self.authDeadline with
    | some deadline =>
      -- the challenge is pending, so no transaction begins
      rw [hauth, getD_some] at ht
      have hexpired : self.expired t = false := by
        simp only [expired, hlease, hauth, htx, map_none, reached_none, reached_some,
          Bool.false_or, Bool.or_false, decide_eq_false_iff_not]
        omega
      have hpending : self.authPending.isSome = true := by rw [hinv.auth, hauth]; rfl
      rw [poll_of_no_transaction hon hexpired htx, if_neg]
      simp [isNone_iff_eq_none, ne_none_iff_isSome.2 hpending]
    | none =>
      rw [hauth, getD_none] at ht
      have hexpired : self.expired t = false := by
        simp [expired, hlease, hauth, htx]
      rw [poll_of_no_transaction hon hexpired htx, if_neg]
      simp only [and_eq_true, decide_eq_true_iff]
      omega

/-- The outcomes of a poll that is not a no-op: a retransmission with a later resend time, the end
of the observation, or the begin of a transaction. -/
def Progresses (self : RegEventSubscription) (now : ℕ) : Prop :=
  (∃ tx resend tx' resend', self.transaction = some tx ∧ tx.resendAt = some resend ∧
    self.poll now = (.retransmit tx.wire, { self with transaction := some tx' }) ∧
    tx'.resendAt = some resend' ∧ resend < resend' ∧ now < resend') ∨
  (self.poll now = (.idle, self.disable)) ∨
  self.poll now = (.begin, self)

theorem poll_at (hinv : TimerInvariant self) (hon : self.disabled = false)
    (h : reached self.leaseDeadline deadline = true ∨ deadline = self.pendingDeadline) :
    self.Progresses deadline := by
  cases hexpired : self.expired deadline with
  | true => exact Or.inr (Or.inl (poll_of_expired hon hexpired))
  | false =>
    have hopen := hexpired
    simp only [expired, or_eq_false_iff] at hopen
    obtain ⟨⟨hlease, hauth⟩, hdeadline⟩ := hopen
    obtain rfl := h.resolve_left (by rw [hlease]; decide)
    cases htx : self.transaction with
    | some tx =>
      rw [htx, map_some, reached_some, decide_eq_false_iff_not] at hdeadline
      have hpending : self.pendingDeadline = min (tx.resendAt.getD tx.deadline) tx.deadline := by
        rw [pendingDeadline, htx]
      cases hresend : tx.resendAt with
      | none => rw [hpending, hresend] at hdeadline; simp at hdeadline
      | some resend =>
        rw [hresend, getD_some] at hpending
        have hinterval := hinv.interval tx htx
        have ht2 := t2_pos
        refine Or.inl ⟨tx, resend, { tx with
          interval := min (tx.interval * 2) t2
          resendAt := some (self.pendingDeadline + min (tx.interval * 2) t2) }, _, htx, hresend,
          ?_, rfl, ?_, ?_⟩
        · rw [poll_of_transaction hon hexpired htx, if_pos]
          rw [hresend, reached_some, decide_eq_true_iff]
          omega
        · omega
        · omega
    | none =>
      cases hwait : self.authDeadline with
      | some deadline =>
        rw [pendingDeadline, htx, hwait] at hauth
        simp at hauth
      | none =>
        have hpending : self.authPending.isNone = true := by
          rw [isNone_iff_eq_none, ← not_isSome_iff_eq_none, hinv.auth, hwait]
          decide
        refine Or.inr (Or.inr ?_)
        rw [poll_of_no_transaction hon hexpired htx, if_pos]
        rw [hpending, pendingDeadline, htx, hwait]
        simp

/-- **The timers are sound.** In every reachable state there is a next deadline unless the observer
is disabled; before it a poll is idle and changes nothing, and at it a poll makes progress. -/
theorem poll_nextDeadline (h : Reachable xml self) :
    (self.nextDeadline = none ↔ self.disabled = true) ∧
    ∀ deadline, self.nextDeadline = some deadline →
      (∀ t < deadline, self.poll t = (.idle, self)) ∧ self.Progresses deadline := by
  have hinv := h.timerInvariant
  refine ⟨nextDeadline_eq_none_iff, fun deadline hdeadline => ?_⟩
  have hon : self.disabled = false := by
    rw [← Bool.not_eq_true, ← nextDeadline_eq_none_iff, hdeadline]
    simp
  constructor
  · intro t ht
    obtain ⟨hlease, hpending⟩ := lt_nextDeadline hdeadline ht
    exact poll_before hinv hon hlease hpending
  · exact poll_at hinv hon (reached_nextDeadline hdeadline)

/-- After a request over UDP the first retransmission is next. -/
theorem poll_nextDeadline_sample :
    let self := Machine.run (step emptyXml) sampleStart [.buildRequest (sampleArgs 600 0)]
    self.nextDeadline = some t1 ∧ (∀ t < t1, self.poll t = (.idle, self)) ∧ self.Progresses t1 := by
  intro self
  have hreachable : Reachable emptyXml self :=
    ⟨sampleBinding, 0, sampleEntropy, sampleEntropy, sampleStart, _, new_sampleStart, rfl⟩
  have hnext : self.nextDeadline = some t1 := by decide +kernel
  exact ⟨hnext, (poll_nextDeadline hreachable).2 t1 hnext⟩

end RegEventSubscription

end RegEvent

end SimMaster
