import SimMaster.RegisterRetry

/-!
# No wait is shortened

What an endpoint may do is its *standing*: that of the whole policy once it is stopped, else that
of the endpoint's entry. A call that runs before `t` keeps every wait until `t`, of an endpoint
and of the two gates (`Keeps`). So a wait once recorded is found by every check before its end,
whatever is called in between (`endpoint_retry_keeps_waits`).
-/

open Rust Machine

namespace SimMaster

open List

/-! ## Admissions -/

namespace RetryAdmission

variable {t : WithTop Instant} {now : Instant}

@[simp] theorem waitsUntil_allowed : allowed.WaitsUntil t ↔ False := Iff.rfl

@[simp] theorem waitsUntil_deferred {notBefore : Instant} :
    (deferred notBefore).WaitsUntil t ↔ t ≤ notBefore := Iff.rfl

@[simp] theorem waitsUntil_stopped {reason : RetryStopReason} :
    (stopped reason).WaitsUntil t ↔ True := Iff.rfl

variable {a : RetryAdmission}

/-- A wait that ends later than `now` has not elapsed. -/
theorem WaitsUntil.not_elapsed (ha : a.WaitsUntil t) (ht : now < t) : a.elapsed now = false := by
  cases a with
  | allowed => rfl
  | stopped reason => rfl
  | deferred notBefore =>
    have hlt : (now : WithTop Instant) < notBefore := ht.trans_le ha
    simpa [elapsed] using hlt

end RetryAdmission

section Merge

variable {t : WithTop Instant}

theorem le_coe_max {a b : Instant} :
    t ≤ (max a b : Instant) ↔ t ≤ (a : WithTop Instant) ∨ t ≤ (b : WithTop Instant) := by
  rcases le_total a b with hab | hab
  · have hle : (a : WithTop Instant) ≤ b := Nat.mono_cast hab
    simpa [max_eq_right hab] using fun h : t ≤ a => h.trans hle
  · have hle : (b : WithTop Instant) ≤ a := Nat.mono_cast hab
    simpa [max_eq_left hab] using fun h : t ≤ b => h.trans hle

/-- A merged admission waits as long as either of its parts. -/
@[simp] theorem waitsUntil_mergeAdmission (a b : RetryAdmission) :
    (mergeAdmission a b).WaitsUntil t ↔ a.WaitsUntil t ∨ b.WaitsUntil t := by
  cases a <;> cases b <;> simp [mergeAdmission, le_coe_max]

/-- So does the admission of an entry in which another wait is recorded. -/
theorem waitsUntil_mergeEntry {old new : RetryAdmission} (hnew : new ≠ .allowed) :
    (mergeEntry old new).WaitsUntil t ↔ old.WaitsUntil t ∨ new.WaitsUntil t := by
  cases old <;> cases new <;> simp_all [mergeEntry, le_coe_max]

/-- A gate loses a wait only when its time is over. -/
@[simp] theorem waitsUntil_clearElapsed {slot : Option RetryAdmission} {now : Instant}
    (ht : now < t) : ((clearElapsed slot now).getD .allowed).WaitsUntil t ↔
      (slot.getD .allowed).WaitsUntil t := by
  cases slot with
  | none => rfl
  | some a =>
    by_cases ha : a.WaitsUntil t
    · simp [clearElapsed, ha.not_elapsed ht]
    · cases h : a.elapsed now <;> simp [clearElapsed, h, ha]

end Merge

theorem canonicalEndpoint_idem (endpoint : Rust.SocketAddr) :
    canonicalEndpoint (canonicalEndpoint endpoint) = canonicalEndpoint endpoint := by
  cases endpoint with
  | v4 a b c d port => rfl
  | v6 groups port flowinfo scopeId =>
    cases h : Ipv6Addr.toIpv4Mapped groups with
    | some ipv4 => simp [canonicalEndpoint, h]
    | none => simp [canonicalEndpoint, h]

/-! ## Entries -/

section Entries

variable {endpoint : Rust.SocketAddr} {admission merged : RetryAdmission}
  {entries entries' : List EndpointRetryEntry}

/-- The admission of the endpoint's first entry. -/
def entryAdmission (entries : List EndpointRetryEntry) (endpoint : Rust.SocketAddr) :
    RetryAdmission :=
  ((entries.find? fun entry => entry.endpoint = endpoint).map (·.admission)).getD .allowed

@[simp] theorem entryAdmission_cons (entry : EndpointRetryEntry) :
    entryAdmission (entry :: entries) endpoint =
      if entry.endpoint = endpoint then entry.admission else entryAdmission entries endpoint := by
  by_cases h : entry.endpoint = endpoint <;> simp [entryAdmission, h]

/-- Without an entry of the endpoint there is nothing to record in. -/
theorem recordEntry_eq_none :
    recordEntry endpoint admission entries = none ↔ endpoint ∉ entries.map (·.endpoint) := by
  induction entries with
  | nil => simp [recordEntry]
  | cons entry rest ih =>
    by_cases h : entry.endpoint = endpoint
    · simp [recordEntry, h]
    · simp [recordEntry, h, ih, Ne.symm h]

/-- Recording changes the admission of the one endpoint, to the longer of the two waits. -/
theorem recordEntry_eq_some (h : recordEntry endpoint admission entries = some (merged, entries')) :
    entries'.map (·.endpoint) = entries.map (·.endpoint) ∧
      merged = mergeEntry (entryAdmission entries endpoint) admission ∧
      ∀ e, entryAdmission entries' e = if e = endpoint then merged else entryAdmission
        entries e := by
  induction entries generalizing entries' with
  | nil => cases h
  | cons entry rest ih =>
    by_cases hentry : entry.endpoint = endpoint
    · simp only [recordEntry, hentry, if_true, Option.some.injEq, Prod.mk.injEq] at h
      obtain ⟨rfl, rfl⟩ := h
      refine ⟨by simp [hentry], by simp [hentry], fun e => ?_⟩
      by_cases he : e = endpoint
      · simp [he]
      · simp [he, hentry, Ne.symm he]
    · simp only [recordEntry, hentry, if_false, Option.map_eq_some_iff, Prod.mk.injEq] at h
      obtain ⟨⟨merged', rest'⟩, hrest, rfl, rfl⟩ := h
      obtain ⟨hmap, hmerged, hadmission⟩ := ih hrest
      refine ⟨by simp [hmap], by rw [entryAdmission_cons, if_neg hentry]; exact hmerged,
        fun e => ?_⟩
      rw [entryAdmission_cons, entryAdmission_cons, hadmission]
      by_cases he : e = endpoint
      · simp [he, hentry]
      · simp [he]

/-- An endpoint without an entry may be tried. -/
theorem entryAdmission_of_notMem (h : endpoint ∉ entries.map (·.endpoint)) :
    entryAdmission entries endpoint = .allowed := by
  induction entries with
  | nil => rfl
  | cons entry rest ih =>
    simp only [map_cons, mem_cons, not_or] at h
    rw [entryAdmission_cons, if_neg (Ne.symm h.1), ih h.2]

/-- Entries of different endpoints are each what is found for theirs. -/
theorem entryAdmission_of_mem {entry : EndpointRetryEntry}
    (hnodup : (entries.map (·.endpoint)).Nodup) (hentry : entry ∈ entries) :
    entryAdmission entries entry.endpoint = entry.admission := by
  induction entries with
  | nil => cases hentry
  | cons first rest ih =>
    obtain ⟨hfirst, hrest⟩ := nodup_cons.mp hnodup
    rw [entryAdmission_cons]
    rcases mem_cons.mp hentry with rfl | hmem
    · rw [if_pos rfl]
    · have hne : first.endpoint ≠ entry.endpoint := fun heq =>
        hfirst (mem_map.mpr ⟨entry, hmem, heq.symm⟩)
      rw [if_neg hne]
      exact ih hrest hmem

/-- A new entry stands for its endpoint and for no other. -/
theorem entryAdmission_concat (h : endpoint ∉ entries.map (·.endpoint)) (e : Rust.SocketAddr) :
    entryAdmission (entries ++ [⟨endpoint, admission⟩]) e =
      if e = endpoint then admission else entryAdmission entries e := by
  induction entries with
  | nil => simp [eq_comm]
  | cons entry rest ih =>
    simp only [map_cons, mem_cons, not_or] at h
    rw [cons_append, entryAdmission_cons, entryAdmission_cons, ih h.2]
    by_cases he : e = endpoint
    · simp [he, Ne.symm h.1]
    · simp [he]

/-- Entries whose wait has no end after `now` are the only ones that pruning drops. -/
theorem waitsUntil_entryAdmission_filter {t : WithTop Instant} {keep : EndpointRetryEntry → Bool}
    (hkeep : ∀ entry ∈ entries, entry.admission.WaitsUntil t → keep entry = true)
    (h : (entryAdmission entries endpoint).WaitsUntil t) :
    (entryAdmission (entries.filter keep) endpoint).WaitsUntil t := by
  induction entries with
  | nil => exact h
  | cons entry rest ih =>
    have hrest := fun e he => hkeep e (mem_cons_of_mem entry he)
    rw [entryAdmission_cons] at h
    by_cases hentry : entry.endpoint = endpoint
    · rw [if_pos hentry] at h
      have hkept : keep entry = true := hkeep entry mem_cons_self h
      rw [filter_cons_of_pos hkept, entryAdmission_cons, if_pos hentry]
      exact h
    · rw [if_neg hentry] at h
      by_cases hkept : keep entry = true
      · rw [filter_cons_of_pos hkept, entryAdmission_cons, if_neg hentry]
        exact ih hrest h
      · rw [filter_cons_of_neg hkept]
        exact ih hrest h

end Entries

/-! ## Calls keep waits -/

namespace EndpointRetryState

variable {s s' s'' : EndpointRetryState} {t : WithTop Instant} {endpoint : Rust.SocketAddr}
  {now : Instant}

/-- What the policy says of an endpoint. -/
def standing (s : EndpointRetryState) (endpoint : Rust.SocketAddr) : RetryAdmission :=
  match s.stopped with
  | some reason => .stopped reason
  | none => entryAdmission s.entries endpoint

theorem standing_of_stopped {reason : RetryStopReason} (h : s.stopped = some reason) :
    s.standing endpoint = .stopped reason := by
  rw [standing, h]

theorem standing_of_running (h : s.stopped = none) :
    s.standing endpoint = entryAdmission s.entries endpoint := by
  rw [standing, h]

/-- Every wait until `t` in the one state is one in the other. -/
structure Keeps (t : WithTop Instant) (s s' : EndpointRetryState) : Prop where
  standing : ∀ endpoint, (s.standing endpoint).WaitsUntil t → (s'.standing endpoint).WaitsUntil t
  event : (s.registrationEventWait.getD .allowed).WaitsUntil t →
    (s'.registrationEventWait.getD .allowed).WaitsUntil t
  unregister : (s.unregisterWait.getD .allowed).WaitsUntil t →
    (s'.unregisterWait.getD .allowed).WaitsUntil t

theorem Keeps.refl (t : WithTop Instant) (s : EndpointRetryState) : Keeps t s s :=
  ⟨fun _ => id, id, id⟩

theorem Keeps.trans (h : Keeps t s s') (h' : Keeps t s' s'') : Keeps t s s'' :=
  ⟨fun e he => h'.standing e (h.standing e he), h'.event ∘ h.event, h'.unregister ∘ h.unregister⟩

theorem keeps_prune (ht : now < t) : Keeps t s (s.prune now) := by
  refine ⟨fun e he => ?_, id, id⟩
  cases hstopped : s.stopped with
  | some reason =>
    have hpruned : (s.prune now).stopped = some reason := hstopped
    rw [standing_of_stopped hpruned]
    trivial
  | none =>
    rw [standing_of_running hstopped] at he
    have hpruned : (s.prune now).stopped = none := hstopped
    rw [standing_of_running hpruned]
    refine waitsUntil_entryAdmission_filter (fun entry _ hentry => ?_) he
    cases hadmission : entry.admission with
    | allowed => rw [hadmission] at hentry; exact hentry.elim
    | stopped reason => rfl
    | deferred notBefore =>
      rw [hadmission] at hentry
      have hlt : (now : WithTop Instant) < notBefore := ht.trans_le hentry
      simpa using hlt

/-- A check says what the policy holds of the endpoint, once elapsed waits are gone. -/
theorem check_eq (s : EndpointRetryState) (endpoint : Rust.SocketAddr) (now : Instant) :
    s.check endpoint now = ((s.prune now).standing (canonicalEndpoint endpoint), s.prune now) := by
  cases hstopped : s.stopped with
  | some reason => simp [check, standing, prune, hstopped]
  | none => simp [check, standing, prune, hstopped, entryAdmission]

/-- After a recording the endpoint stands as answered, which is at least as long as before and as
long as recorded. -/
theorem record_spec (endpoint : Rust.SocketAddr) (admission : RetryAdmission)
    (hstopped : s.stopped = none) (hadmission : admission ≠ .allowed) (ht : now < t) :
    Keeps t s (s.record endpoint now admission).2 ∧ (s.record endpoint now admission).1 =
        (s.record endpoint now admission).2.standing endpoint ∧
      (admission.WaitsUntil t → (s.record endpoint now admission).1.WaitsUntil t) := by
  have hpruned : Keeps t s (s.prune now) := keeps_prune ht
  have hrunning : (s.prune now).stopped = none := hstopped
  rw [record]
  split
  case h_1 merged entries hentry =>
    obtain ⟨-, rfl, hfound⟩ := recordEntry_eq_some hentry
    refine ⟨hpruned.trans ⟨fun e he => ?_, id, id⟩, ?_, fun h => ?_⟩
    · rw [standing_of_running hrunning] at he
      rw [standing_of_running (by exact hrunning), hfound]
      split
      case isTrue heq =>
        rw [heq] at he
        exact (waitsUntil_mergeEntry hadmission).mpr (.inl he)
      case isFalse => exact he
    · rw [standing_of_running (by exact hrunning), hfound, if_pos rfl]
    · exact (waitsUntil_mergeEntry hadmission).mpr (.inr h)
  case h_2 hentry =>
    have hnew := recordEntry_eq_none.mp hentry
    split
    · exact ⟨hpruned.trans ⟨fun _ _ => trivial, id, id⟩, rfl, fun _ => trivial⟩
    · refine ⟨hpruned.trans ⟨fun e he => ?_, id, id⟩, ?_, id⟩
      · rw [standing_of_running hrunning] at he
        rw [standing_of_running (by exact hrunning), entryAdmission_concat hnew]
        split
        case isTrue heq =>
          rw [heq, entryAdmission_of_notMem hnew] at he
          exact he.elim
        case isFalse => exact he
      · rw [standing_of_running (by exact hrunning), entryAdmission_concat hnew, if_pos rfl]

/-- What a call that observes a failure does: waits are kept, the endpoint stands as answered. -/
structure Observes (t : WithTop Instant) (endpoint : Rust.SocketAddr) (s : EndpointRetryState)
    (answer : RetryAdmission) (s' : EndpointRetryState) : Prop where
  keeps : Keeps t s s'
  answer_eq : answer.WaitsUntil t ↔ (s'.standing endpoint).WaitsUntil t

theorem observes_check (ht : now < t) (hcanonical : canonicalEndpoint endpoint = endpoint) :
    Observes t endpoint s (s.check endpoint now).1 (s.check endpoint now).2 := by
  rw [check_eq, hcanonical]
  exact ⟨keeps_prune ht, Iff.rfl⟩

/-- A policy that does not answer `Stopped` is not stopped. -/
theorem running_of_check {current : RetryAdmission} (hcheck : s.check endpoint now = (current, s'))
    (hcurrent : ∀ reason, current ≠ .stopped reason) : s'.stopped = none := by
  rw [check_eq, Prod.mk.injEq] at hcheck
  obtain ⟨rfl, rfl⟩ := hcheck
  cases hstopped : (s.prune now).stopped with
  | none => rfl
  | some reason => exact (hcurrent reason (standing_of_stopped hstopped)).elim

theorem deferDelay_spec (ht : now < t) (hcanonical : canonicalEndpoint endpoint = endpoint)
    (delay : Duration) : Observes t endpoint s (s.deferDelay endpoint now delay).1
        (s.deferDelay endpoint now delay).2 ∧
      (t ≤ askedWait now (some delay) → (s.deferDelay endpoint now delay).1.WaitsUntil t) := by
  have hcheck : Observes t endpoint s (s.check endpoint now).1 (s.check endpoint now).2 :=
    observes_check ht hcanonical
  rw [deferDelay]
  generalize hc : s.check endpoint now = checked at hcheck ⊢
  obtain ⟨current, s'⟩ := checked
  dsimp only at hcheck ⊢
  split
  case h_1 => exact ⟨hcheck, fun _ => trivial⟩
  case h_2 hrunning =>
    have hstopped : s'.stopped = none := running_of_check hc hrunning
    split
    case isTrue hlong =>
      obtain ⟨hkeeps, hanswer, hasked⟩ := record_spec endpoint
        (.stopped .retryAfterTooLong) hstopped nofun ht
      exact ⟨⟨hcheck.keeps.trans hkeeps, by rw [hanswer]⟩, fun _ => hasked trivial⟩
    case isFalse hshort =>
      split
      case h_1 =>
        exact ⟨⟨hcheck.keeps.trans ⟨fun _ _ => trivial, id, id⟩, Iff.rfl⟩, fun _ => trivial⟩
      case h_2 notBefore hadd =>
        obtain ⟨hkeeps, hanswer, hasked⟩ := record_spec endpoint (.deferred notBefore)
          hstopped nofun ht
        refine ⟨⟨hcheck.keeps.trans hkeeps, by rw [hanswer]⟩, fun h => hasked ?_⟩
        rw [askedWait, if_neg hshort] at h
        have hend : notBefore = now + max delay MIN_ENDPOINT_RETRY_DELAY := by
          rw [Instant.checkedAdd] at hadd
          split at hadd
          · exact (Option.some.inj hadd).symm
          · cases hadd
        rwa [hend]

theorem observeFailure_spec (endpoint : Rust.SocketAddr) (ht : now < t)
    (failure : RegisterFailureMetadata) :
    Observes t (canonicalEndpoint endpoint) s (s.observeFailure endpoint failure now).1
        (s.observeFailure endpoint failure now).2 ∧
      ∀ delay ∈ retryDelay failure, t ≤ askedWait now delay →
        (s.observeFailure endpoint failure now).1.WaitsUntil t := by
  have hcanonical := canonicalEndpoint_idem endpoint
  have hcheck : Observes t (canonicalEndpoint endpoint) s
      (s.check (canonicalEndpoint endpoint) now).1 (s.check (canonicalEndpoint endpoint) now).2 :=
    observes_check ht hcanonical
  rw [observeFailure]
  generalize hc : s.check (canonicalEndpoint endpoint) now = checked at hcheck ⊢
  obtain ⟨current, s'⟩ := checked
  dsimp only at hcheck ⊢
  split
  case h_1 => exact ⟨hcheck, fun _ _ _ => trivial⟩
  case h_2 hrunning =>
    have hstopped : s'.stopped = none := running_of_check hc hrunning
    cases hdelay : retryDelay failure with
    | none => exact ⟨hcheck, nofun⟩
    | some delay =>
      cases delay with
      | none =>
        obtain ⟨hkeeps, hanswer, hasked⟩ := record_spec (canonicalEndpoint endpoint)
          (.stopped .invalidRetryAfter) hstopped nofun ht
        exact ⟨⟨hcheck.keeps.trans hkeeps, by rw [hanswer]⟩, fun _ _ _ => hasked trivial⟩
      | some delay =>
        obtain ⟨hobserves, hasked⟩ := deferDelay_spec ht hcanonical delay
        refine ⟨⟨hcheck.keeps.trans hobserves.keeps, hobserves.answer_eq⟩, ?_⟩
        rintro _ ⟨⟩ h
        exact hasked h

/-- Opening the gates whose time is over keeps the others, and the answer is the longest wait of
the three. -/
theorem restartAdmission_spec (ht : now < t) : Keeps t s (s.restartAdmission now).2 ∧
      ((s.restartAdmission now).1.WaitsUntil t ↔ (s.restart.getD .allowed).WaitsUntil t ∨
        (s.registrationEventWait.getD .allowed).WaitsUntil t ∨
        (s.unregisterWait.getD .allowed).WaitsUntil t) := by
  refine ⟨⟨fun _ => id, fun h => ?_, fun h => ?_⟩, ?_⟩
  · exact (waitsUntil_clearElapsed ht).mpr h
  · exact (waitsUntil_clearElapsed ht).mpr h
  · simp [restartAdmission, ht, or_assoc]

theorem keeps_pauseRestart (ht : now < t) : Keeps t s (s.pauseRestart now).2 := by
  -- only the gate of the exhausted pass is written
  refine ((keeps_prune ht).trans ?_).trans (restartAdmission_spec ht).1
  exact ⟨fun _ => id, id, id⟩

/-- A deregistration puts the endpoint's wait into its gate. -/
theorem observeUnregisterFailure_spec (endpoint : Rust.SocketAddr) (ht : now < t)
    (failure : RegisterFailureMetadata) :
    Keeps t s (s.observeUnregisterFailure endpoint failure now).2 ∧
      ∀ delay ∈ retryDelay failure, t ≤ askedWait now delay →
        ((s.observeUnregisterFailure endpoint failure now).2.standing
            (canonicalEndpoint endpoint)).WaitsUntil t ∧
          ((s.observeUnregisterFailure endpoint failure now).2.unregisterWait.getD
            .allowed).WaitsUntil t := by
  obtain ⟨hobserves, hasked⟩ := observeFailure_spec (s := s) endpoint ht failure
  rw [observeUnregisterFailure]
  generalize s.observeFailure endpoint failure now = observed at hobserves hasked ⊢
  obtain ⟨admission, s₁⟩ := observed
  have hrestart := restartAdmission_spec (s := s₁) ht
  dsimp only at hobserves hasked ⊢
  generalize s₁.restartAdmission now = restarted at hrestart ⊢
  obtain ⟨previous, s₂⟩ := restarted
  -- the gate already holds what the answer before it merges
  have hgate : Keeps t s₁ { s₂ with unregisterWait := some (mergeAdmission previous admission) } :=
    ⟨hrestart.1.standing, hrestart.1.event,
      fun h => (waitsUntil_mergeAdmission _ _).mpr (.inl (hrestart.2.mpr (.inr (.inr h))))⟩
  have hlast := (restartAdmission_spec ht
    (s := { s₂ with unregisterWait := some (mergeAdmission previous admission) })).1
  refine ⟨(hobserves.keeps.trans hgate).trans hlast, fun delay hdelay h => ⟨?_, ?_⟩⟩
  · have hstanding := hobserves.answer_eq.mp (hasked delay hdelay h)
    exact hlast.standing _ (hgate.standing _ hstanding)
  · exact hlast.unregister ((waitsUntil_mergeAdmission _ _).mpr (.inr (hasked delay hdelay h)))

/-- A registration event puts the endpoint's wait into its gate. -/
theorem observeRegistrationEvent_spec (endpoint : Rust.SocketAddr) (ht : now < t)
    (retryAfterSeconds : Option UInt32) :
    Keeps t s (s.observeRegistrationEvent endpoint now retryAfterSeconds).2 ∧
      (t ≤ askedWait now (some (eventDelay retryAfterSeconds)) →
        ((s.observeRegistrationEvent endpoint now retryAfterSeconds).2.standing
            (canonicalEndpoint endpoint)).WaitsUntil t ∧
          ((s.observeRegistrationEvent endpoint now retryAfterSeconds).2.registrationEventWait.getD
            .allowed).WaitsUntil t) := by
  obtain ⟨hobserves, hasked⟩ := deferDelay_spec (s := s) ht (canonicalEndpoint_idem endpoint)
    (eventDelay retryAfterSeconds)
  rw [observeRegistrationEvent]
  generalize s.deferDelay (canonicalEndpoint endpoint) now (eventDelay retryAfterSeconds) =
    observed at hobserves hasked ⊢
  obtain ⟨admission, s₁⟩ := observed
  have hrestart := restartAdmission_spec (s := s₁) ht
  dsimp only at hobserves hasked ⊢
  generalize s₁.restartAdmission now = restarted at hrestart ⊢
  obtain ⟨previous, s₂⟩ := restarted
  have hgate : Keeps t s₂ { s₂ with
      registrationEventWait :=
        some (mergeAdmission (s₂.registrationEventWait.getD .allowed) admission) } :=
    ⟨fun _ => id, fun h => (waitsUntil_mergeAdmission _ _).mpr (.inl h), id⟩
  have hlast := (restartAdmission_spec ht (s := { s₂ with
    registrationEventWait :=
      some (mergeAdmission (s₂.registrationEventWait.getD .allowed) admission) })).1
  refine ⟨((hobserves.keeps.trans hrestart.1).trans hgate).trans hlast, fun h => ⟨?_, ?_⟩⟩
  · have hstanding := hobserves.answer_eq.mp (hasked h)
    exact hlast.standing _ (hgate.standing _ (hrestart.1.standing _ hstanding))
  · exact hlast.event ((waitsUntil_mergeAdmission _ _).mpr (.inr (hasked h)))

variable (failure : RegisterFailureMetadata)

theorem observeRefreshFailure_snd (remaining : Duration) :
    (s.observeRefreshFailure endpoint failure now remaining).2 =
      (s.observeFailure endpoint failure now).2 := by
  rw [observeRefreshFailure]
  split
  split <;> simp [*]

/-- **One call.** A call that runs before `t` keeps every wait until `t`. -/
theorem keeps_step (call : RetryCall) (hcall : ∀ now ∈ call.now?, now < t) :
    Keeps t s (s.step call).2 := by
  cases call with
  | check endpoint now =>
    have ht : now < t := hcall now rfl
    have hcheck : (s.check endpoint now).2 = s.prune now := by rw [check_eq]
    exact hcheck ▸ keeps_prune ht
  | observeFailure endpoint failure now =>
    exact (observeFailure_spec endpoint (hcall now rfl) failure).1.keeps
  | observeRefreshFailure endpoint failure now remaining =>
    have hspec := (observeFailure_spec (s := s) endpoint (hcall now rfl) failure).1
    exact (observeRefreshFailure_snd failure remaining) ▸ hspec.keeps
  | observeUnregisterFailure endpoint failure now =>
    exact (observeUnregisterFailure_spec endpoint (hcall now rfl) failure).1
  | observeRegistrationEvent endpoint retryAfterSeconds now =>
    exact (observeRegistrationEvent_spec endpoint (hcall now rfl) retryAfterSeconds).1
  | pauseRestart now => exact keeps_pauseRestart (hcall now rfl)
  | restartAdmission now => exact (restartAdmission_spec (hcall now rfl)).1
  | registered => exact ⟨fun _ => id, id, id⟩

/-- The endpoint and the gates wait for what a call asks of them. -/
structure Serves (t : WithTop Instant) (endpoint : Rust.SocketAddr) (call : RetryCall)
    (s : EndpointRetryState) : Prop where
  standing : (s.standing (canonicalEndpoint endpoint)).WaitsUntil t
  gate : call.gatesRestart → (s.registrationEventWait.getD .allowed).WaitsUntil t ∨
    (s.unregisterWait.getD .allowed).WaitsUntil t

variable {call : RetryCall}

theorem Serves.of_keeps (h : Serves t endpoint call s) (hkeeps : Keeps t s s') :
    Serves t endpoint call s' :=
  ⟨hkeeps.standing _ h.standing, fun hgates => (h.gate hgates).imp hkeeps.event hkeeps.unregister⟩

/-- A call that asks for a wait is served. -/
theorem serves_step (hcall : ∀ now ∈ call.now?, now < t)
    (hasks : call.asks = some (endpoint, t)) : Serves t endpoint call (s.step call).2 := by
  cases call with
  | observeFailure e failure now =>
    obtain ⟨delay, hdelay, heq⟩ := Option.map_eq_some_iff.mp hasks
    obtain ⟨rfl, rfl⟩ := Prod.mk.inj heq
    obtain ⟨hobserves, hasked⟩ := observeFailure_spec (s := s) e (hcall now rfl) failure
    exact ⟨hobserves.answer_eq.mp (hasked delay hdelay le_rfl), nofun⟩
  | observeRefreshFailure e failure now remaining =>
    obtain ⟨delay, hdelay, heq⟩ := Option.map_eq_some_iff.mp hasks
    obtain ⟨rfl, rfl⟩ := Prod.mk.inj heq
    obtain ⟨hobserves, hasked⟩ := observeFailure_spec (s := s) e (hcall now rfl) failure
    have hanswer := hobserves.answer_eq.mp (hasked delay hdelay le_rfl)
    exact ⟨(observeRefreshFailure_snd failure remaining) ▸ hanswer, nofun⟩
  | observeUnregisterFailure e failure now =>
    obtain ⟨delay, hdelay, heq⟩ := Option.map_eq_some_iff.mp hasks
    obtain ⟨rfl, rfl⟩ := Prod.mk.inj heq
    have hspec := observeUnregisterFailure_spec (s := s) e (hcall now rfl) failure
    exact ⟨(hspec.2 delay hdelay le_rfl).1, fun _ => .inr (hspec.2 delay hdelay le_rfl).2⟩
  | observeRegistrationEvent e retryAfterSeconds now =>
    obtain ⟨rfl, rfl⟩ := Prod.mk.inj (Option.some.inj hasks)
    have hspec :=
      observeRegistrationEvent_spec (s := s) e (hcall now rfl) retryAfterSeconds
    exact ⟨(hspec.2 le_rfl).1, fun _ => .inl (hspec.2 le_rfl).2⟩
  | check e now => cases hasks
  | pauseRestart now => cases hasks
  | restartAdmission now => cases hasks
  | registered => cases hasks

/-! ## Well-formed states -/

/-- No two entries are of one endpoint, each is under the endpoint's one spelling, and there are
not too many. -/
structure WellFormed (s : EndpointRetryState) : Prop where
  nodup : (s.entries.map (·.endpoint)).Nodup
  canonical : ∀ entry ∈ s.entries, canonicalEndpoint entry.endpoint = entry.endpoint
  length_le : s.entries.length ≤ MAX_ENDPOINT_RETRY_ENTRIES

variable (h : WellFormed s)
include h

theorem WellFormed.prune : WellFormed (s.prune now) :=
  ⟨h.nodup.sublist (filter_sublist.map _),
    fun entry hentry => h.canonical entry (mem_of_mem_filter hentry),
    (length_filter_le _ _).trans h.length_le⟩

theorem WellFormed.record (hcanonical : canonicalEndpoint endpoint = endpoint)
    (admission : RetryAdmission) : WellFormed (s.record endpoint now admission).2 := by
  have hpruned : WellFormed (s.prune now) := h.prune
  rw [EndpointRetryState.record]
  split
  case h_1 merged entries hentry =>
    obtain ⟨hmap, -⟩ := recordEntry_eq_some hentry
    refine ⟨by rw [hmap]; exact hpruned.nodup, fun entry hmem => ?_, ?_⟩
    · have hendpoint : entry.endpoint ∈ (s.prune now).entries.map (·.endpoint) :=
        hmap ▸ mem_map_of_mem hmem
      obtain ⟨old, hold, heq⟩ := mem_map.mp hendpoint
      rw [← heq]
      exact hpruned.canonical old hold
    · have hlength := congrArg List.length hmap
      rw [length_map, length_map] at hlength
      exact hlength ▸ hpruned.length_le
  case h_2 hentry =>
    have hnew := recordEntry_eq_none.mp hentry
    split
    case isTrue => exact ⟨hpruned.nodup, hpruned.canonical, hpruned.length_le⟩
    case isFalse hroom =>
      refine ⟨?_, fun entry hmem => ?_, ?_⟩
      · rw [map_append]
        exact hpruned.nodup.append (nodup_singleton _) (by simpa using hnew)
      · rcases mem_append.mp hmem with hmem | hmem
        · exact hpruned.canonical entry hmem
        · rw [mem_singleton.mp hmem]
          exact hcanonical
      · rw [length_append, length_singleton]
        omega

theorem WellFormed.check : WellFormed (s.check endpoint now).2 := by
  rw [check_eq]
  exact h.prune

/-- Only the entries matter. -/
theorem WellFormed.of_entries_eq (heq : s'.entries = s.entries) : WellFormed s' :=
  ⟨heq ▸ h.nodup, heq ▸ h.canonical, heq ▸ h.length_le⟩

theorem WellFormed.deferDelay
    (hcanonical : canonicalEndpoint endpoint = endpoint) (delay : Duration) :
    WellFormed (s.deferDelay endpoint now delay).2 := by
  have hcheck : WellFormed (s.check endpoint now).2 := h.check
  rw [EndpointRetryState.deferDelay]
  generalize s.check endpoint now = checked at hcheck ⊢
  dsimp only at hcheck ⊢
  split
  · exact hcheck
  · split
    · exact hcheck.record hcanonical _
    · split
      · exact hcheck.of_entries_eq rfl
      · exact hcheck.record hcanonical _

theorem WellFormed.observeFailure : WellFormed (s.observeFailure endpoint failure now).2 := by
  have hcanonical := canonicalEndpoint_idem endpoint
  have hcheck : WellFormed (s.check (canonicalEndpoint endpoint) now).2 := h.check
  rw [EndpointRetryState.observeFailure]
  generalize s.check (canonicalEndpoint endpoint) now = checked at hcheck ⊢
  dsimp only at hcheck ⊢
  split
  · exact hcheck
  · split
    · exact hcheck.record hcanonical _
    · exact hcheck.deferDelay hcanonical _
    · exact hcheck

theorem WellFormed.step (call : RetryCall) : WellFormed (s.step call).2 := by
  cases call with
  | check endpoint now => exact h.check
  | observeFailure endpoint failure now => exact h.observeFailure failure
  | observeRefreshFailure endpoint failure now remaining =>
    exact (observeRefreshFailure_snd failure remaining) ▸ h.observeFailure failure
  | observeUnregisterFailure endpoint failure now =>
    exact (h.observeFailure failure).of_entries_eq rfl
  | observeRegistrationEvent endpoint retryAfterSeconds now =>
    exact (h.deferDelay (canonicalEndpoint_idem endpoint) _).of_entries_eq rfl
  | pauseRestart now => exact (WellFormed.prune h).of_entries_eq rfl
  | restartAdmission now => exact h.of_entries_eq rfl
  | registered => exact h.of_entries_eq rfl

/-- An entry is what the policy says of its endpoint. -/
theorem WellFormed.standing_of_mem {entry : EndpointRetryEntry}
    (hentry : entry ∈ s.entries) (hwaits : entry.admission.WaitsUntil t) :
    (s.standing entry.endpoint).WaitsUntil t := by
  cases hstopped : s.stopped with
  | some reason =>
    rw [standing_of_stopped hstopped]
    trivial
  | none =>
    rw [standing_of_running hstopped, entryAdmission_of_mem h.nodup hentry]
    exact hwaits

end EndpointRetryState

/-! ## Runs -/

section Runs

variable {calls earlier later : List RetryCall} {now : Instant} {t : WithTop Instant}

/-- The state after the calls. -/
def afterCalls (calls : List RetryCall) : EndpointRetryState :=
  Machine.run EndpointRetryState.step {} calls

theorem wellFormed_afterCalls (calls : List RetryCall) : (afterCalls calls).WellFormed :=
  run_invariant EndpointRetryState.step ⟨nodup_nil, nofun, Nat.zero_le _⟩
    (fun _ call h => h.step call) calls

variable {s : EndpointRetryState}

/-- A run of calls before `t` keeps every wait until `t`. -/
theorem keeps_run (hcalls : ∀ call ∈ calls, ∀ now ∈ call.now?, now < t) :
    s.Keeps t (run EndpointRetryState.step s calls) :=
  run_invariant_of EndpointRetryState.step (.refl t s)
    (fun _ call hcall h => h.trans (EndpointRetryState.keeps_step call hcall)) hcalls

theorem keeps_afterCalls (hlater : ∀ call ∈ later, ∀ now ∈ call.now?, now < t) :
    (afterCalls earlier).Keeps t (afterCalls (earlier ++ later)) := by
  rw [afterCalls, afterCalls, run_append]
  exact keeps_run hlater

variable {endpoint : Rust.SocketAddr}

/-- What the policy holds of an endpoint past `now` is what a check at `now` answers. -/
theorem waitsUntil_check (ht : now < t)
    (h : (s.standing (canonicalEndpoint endpoint)).WaitsUntil t) :
    (s.check endpoint now).1.WaitsUntil t := by
  rw [EndpointRetryState.check_eq]
  exact (EndpointRetryState.keeps_prune ht).standing _ h

theorem waitsUntil_restartAdmission (ht : now < t)
    (h : (s.registrationEventWait.getD .allowed).WaitsUntil t ∨
      (s.unregisterWait.getD .allowed).WaitsUntil t) :
    (s.restartAdmission now).1.WaitsUntil t :=
  (EndpointRetryState.restartAdmission_spec ht).2.mpr (.inr h)

/-- A wait until `t` is recorded for the endpoint: in its entry, or because the policy is
stopped. -/
def EndpointRetryState.Records (t : WithTop Instant) (endpoint : Rust.SocketAddr)
    (s : EndpointRetryState) : Prop :=
  s.stopped.isSome ∨ ∃ entry ∈ s.entries,
    entry.endpoint = canonicalEndpoint endpoint ∧ entry.admission.WaitsUntil t

/-- A wait until `t` is recorded in the gate of the registration events or of the
deregistrations. -/
def EndpointRetryState.RecordsGate (t : WithTop Instant) (s : EndpointRetryState) : Prop :=
  ∃ admission, (s.registrationEventWait = some admission ∨ s.unregisterWait = some admission) ∧
    admission.WaitsUntil t

theorem EndpointRetryState.Records.standing (h : s.Records t endpoint) (hs : s.WellFormed) :
    (s.standing (canonicalEndpoint endpoint)).WaitsUntil t := by
  rcases h with h | ⟨entry, hentry, heq, hwaits⟩
  · obtain ⟨reason, hstopped⟩ := Option.isSome_iff_exists.mp h
    rw [standing_of_stopped hstopped]
    trivial
  · exact heq ▸ hs.standing_of_mem hentry hwaits

theorem EndpointRetryState.RecordsGate.waitsUntil (h : s.RecordsGate t) :
    (s.registrationEventWait.getD .allowed).WaitsUntil t ∨
      (s.unregisterWait.getD .allowed).WaitsUntil t := by
  obtain ⟨admission, hslot | hslot, hwaits⟩ := h
  · left
    rwa [hslot]
  · right
    rwa [hslot]

variable {remaining wait : Duration}

/-- A refresh is retried within the old lifetime or not at all. -/
theorem refreshWaitDecision_lt {admission : RetryAdmission}
    (h : refreshWaitDecision admission now remaining = some (.retryAfter wait)) :
    0 < wait ∧ wait < remaining := by
  cases admission with
  | allowed => simp [refreshWaitDecision] at h
  | stopped reason =>
    simp only [refreshWaitDecision] at h
    split_ifs at h <;> cases h
  | deferred notBefore =>
    simp only [refreshWaitDecision] at h
    split_ifs at h with hlifetime hwait hlt
    all_goals cases h
    exact ⟨Nat.pos_of_ne_zero hwait, hlt⟩

theorem observeRefreshFailure_lt {failure : RegisterFailureMetadata}
    (h : (s.observeRefreshFailure endpoint failure now remaining).1 = .retryAfter wait) :
    0 < wait ∧ wait < remaining := by
  rw [EndpointRetryState.observeRefreshFailure] at h
  generalize s.observeFailure endpoint failure now = observed at h
  obtain ⟨admission, s'⟩ := observed
  dsimp only at h
  split at h
  · cases h
  · cases hdecision : refreshWaitDecision admission now remaining with
    | none => rw [hdecision] at h; cases h
    | some decision =>
      rw [hdecision] at h
      exact refreshWaitDecision_lt (hdecision.trans (congrArg some h))

/-- **No wait is shortened.** In a run whose calls are at no instant after `now`, let a wait that
ends after `now` be recorded at some point, or asked for by one of the calls. A check at `now` of
any spelling of the endpoint still answers with it, and so does the restart gate if the wait was
learned from a registration event or a deregistration. The wait without an end is that of a
stopped endpoint or policy (`RetryAdmission.waitsUntil_top`). The entries stay well formed, and a
refresh that failed at `now` is retried before the end of the old lifetime or not at all. -/
theorem endpoint_retry_keeps_waits (calls : List RetryCall) (now : Instant)
    (hnow : ∀ call ∈ calls, ∀ instant ∈ call.now?, instant ≤ now) :
    (∀ earlier later, earlier ++ later = calls → ∀ t : WithTop Instant, now < t →
      (∀ endpoint endpoint', canonicalEndpoint endpoint' = canonicalEndpoint endpoint →
        (afterCalls earlier).Records t endpoint →
        ((afterCalls calls).check endpoint' now).1.WaitsUntil t) ∧
      ((afterCalls earlier).RecordsGate t →
        ((afterCalls calls).restartAdmission now).1.WaitsUntil t)) ∧
    (∀ call ∈ calls, ∀ endpoint t, call.asks = some (endpoint, t) → now < t →
      (∀ endpoint', canonicalEndpoint endpoint' = canonicalEndpoint endpoint →
        ((afterCalls calls).check endpoint' now).1.WaitsUntil t) ∧
      (call.gatesRestart → ((afterCalls calls).restartAdmission now).1.WaitsUntil t)) ∧
    (afterCalls calls).WellFormed ∧ ∀ endpoint failure remaining wait,
      ((afterCalls calls).observeRefreshFailure endpoint failure now remaining).1 =
        .retryAfter wait → 0 < wait ∧ wait < remaining := by
  have hbefore : ∀ t : WithTop Instant, now < t → ∀ call ∈ calls, ∀ instant ∈ call.now?,
      (instant : WithTop Instant) < t := by
    intro t ht call hcall instant hinstant
    have hle : (instant : WithTop Instant) ≤ now := Nat.mono_cast (hnow call hcall instant hinstant)
    exact hle.trans_lt ht
  refine ⟨?_, ?_, wellFormed_afterCalls calls, fun _ _ _ _ h => observeRefreshFailure_lt h⟩
  · rintro earlier later rfl t ht
    have hkeeps : (afterCalls earlier).Keeps t (afterCalls (earlier ++ later)) :=
      keeps_afterCalls fun call hcall => hbefore t ht call (mem_append_right _ hcall)
    refine ⟨fun endpoint endpoint' hsame hrecords => waitsUntil_check ht ?_, fun hgate => ?_⟩
    · rw [hsame]
      exact hkeeps.standing _ (hrecords.standing (wellFormed_afterCalls earlier))
    · exact waitsUntil_restartAdmission ht (hgate.waitsUntil.imp hkeeps.event hkeeps.unregister)
  · intro call hcall endpoint t hasks ht
    obtain ⟨earlier, later, rfl⟩ := append_of_mem hcall
    -- the call is served at once, and the calls after it keep its wait
    have hserves : EndpointRetryState.Serves t endpoint call
        ((afterCalls earlier).step call).2 :=
      EndpointRetryState.serves_step (hbefore t ht call hcall) hasks
    have hkeeps : ((afterCalls earlier).step call).2.Keeps t
        (afterCalls (earlier ++ call :: later)) := by
      rw [afterCalls, afterCalls, Machine.run_append, Machine.run_cons]
      exact keeps_run fun c hc => hbefore t ht c (by simp [hc])
    have hserved := hserves.of_keeps hkeeps
    refine ⟨fun endpoint' hsame => waitsUntil_check ht ?_, fun hgates => ?_⟩
    · rw [hsame]
      exact hserved.standing
    · exact waitsUntil_restartAdmission ht (hserved.gate hgates)

end Runs

/-- A registrar that asks a deregistration for two minutes, at an address in two spellings. -/
theorem endpoint_retry_keeps_waits_sample :
    let mapped : Rust.SocketAddr := .v6 #v[0, 0, 0, 0, 0, 0xffff, 0xc000, 0x201] 5060 7 0
    let failure : RegisterFailureMetadata :=
      ⟨some 503, .initial, .temporaryEndpoint, .delaySeconds 120, none⟩
    let calls : List RetryCall := [.observeUnregisterFailure mapped failure 0, .registered,
      .pauseRestart (Duration.fromSecs 50)]
    ((afterCalls calls).check (.v4 192 0 2 1 5060) (Duration.fromSecs 60)).1.WaitsUntil
        (Duration.fromSecs 120) ∧
      ((afterCalls calls).restartAdmission (Duration.fromSecs 60)).1.WaitsUntil
        (Duration.fromSecs 120) := by
  intro mapped failure calls
  have hcanonical : canonicalEndpoint (.v4 192 0 2 1 5060) = canonicalEndpoint mapped := by decide
  have hnow : ∀ call ∈ calls, ∀ instant ∈ call.now?, instant ≤ Duration.fromSecs 60 := by
    simp [calls, RetryCall.now?, Duration.fromSecs]
  have hend : (Duration.fromSecs 60 : Instant) < (Duration.fromSecs 120 : WithTop Instant) :=
    Nat.cast_lt.mpr (by decide)
  have hasked := (endpoint_retry_keeps_waits calls (Duration.fromSecs 60) hnow).2.1
    (.observeUnregisterFailure mapped failure 0) mem_cons_self mapped
    (Duration.fromSecs 120) (by decide) hend
  exact ⟨hasked.1 _ hcanonical, hasked.2 rfl⟩

end SimMaster
