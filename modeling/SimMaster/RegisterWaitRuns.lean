import SimMaster.RegisterWait

/-!
# What a run of the loop does to the channel

What one turn can do is said once (`Turned`, `Read`). From it follows, over every run, what becomes
of the frames that are read (`FramesKept`): those of the transaction are kept, the others are handed
back in their order, and the first final answer is returned. The request is repeated as it is, when
it is due and until the deadline, and only what was sent moves the time it is due (`Timed`).
-/

namespace SimMaster.RegisterWait

open Rust Machine List Option

/-! ## Logs -/

/-- The frames read from the channel. -/
def delivered (log : List Action) : List Bytes :=
  log.filterMap fun action => match action with
    | .received frame => some frame
    | _ => none

/-- The frames handed back to it. -/
def requeuedFrames (log : List Action) : List Bytes :=
  log.filterMap fun action => match action with
    | .requeued frame => some frame
    | _ => none

/-- The requests sent, and when. -/
def sends (log : List Action) : List (Bytes × Instant) :=
  log.filterMap fun action => match action with
    | .sent request now => some (request, now)
    | _ => none

variable (a b : List Action)

theorem delivered_append : delivered (a ++ b) = delivered a ++ delivered b :=
  filterMap_append

theorem requeuedFrames_append : requeuedFrames (a ++ b) = requeuedFrames a ++ requeuedFrames b :=
  filterMap_append

theorem sends_append : sends (a ++ b) = sends a ++ sends b :=
  filterMap_append

/-- The status of a response is one of 1xx. -/
def isProvisional (frame : Bytes) : Bool :=
  match parseStatus frame with
  | .ok status => 100 ≤ status ∧ status ≤ 199
  | .error _ => false

/-- It is another status. -/
def isFinal (frame : Bytes) : Bool :=
  match parseStatus frame with
  | .ok status => ¬(100 ≤ status ∧ status ≤ 199)
  | .error _ => false

/-- The interval before the next repetition, after some. -/
def interval (count : ℕ) : Duration := min (t1 * 2 ^ count) t2

/-- When the request is due again: an interval after it was sent last, or after the loop began. -/
def due (now : Instant) (sent : List (Bytes × Instant)) : Instant :=
  (sent.getLast?.map Prod.snd).getD now + interval sent.length

theorem interval_zero : interval 0 = t1 := by decide

theorem interval_succ (count : ℕ) : min (interval count * 2) t2 = interval (count + 1) := by
  have hcap : t2 ≤ t2 * 2 := Nat.le_mul_of_pos_right t2 (by decide)
  rw [interval, interval, ← Nat.mul_min_mul_right, min_assoc, min_eq_right hcap, Nat.pow_succ,
    Nat.mul_assoc]

/-! ## What a turn can do -/

/-- What may come of a read. -/
inductive Read (x : Exchange) (s : State) : List Action → State → Prop
  | other (frame : Bytes) (h : x.expects frame = false) :
    Read x s [.received frame, .requeued frame] { s with
      ignoredFrames := saturatingSucc s.ignoredFrames
      result := if maxIgnoredFrames < saturatingSucc s.ignoredFrames then
        some (.error ⟨x.receiveError⟩) else none }
  | malformed (frame : Bytes) (h : x.expects frame = true) (error : ImsError)
      (hstatus : parseStatus frame = .error error) :
    Read x s [.received frame] { s with result := some (.error error) }
  | final (frame : Bytes) (h : x.expects frame = true) (status : ℕ)
      (hstatus : parseStatus frame = .ok status) (hfinal : ¬(100 ≤ status ∧ status ≤ 199)) :
    Read x s [.received frame] { s with result := some (.ok frame) }
  | provisional (frame : Bytes) (h : x.expects frame = true) (status : ℕ)
      (hstatus : parseStatus frame = .ok status) (hprovisional : 100 ≤ status ∧ status ≤ 199) :
    Read x s [.received frame] { s with
      provisionalCount := saturatingSucc s.provisionalCount
      result := if maxProvisionalResponses < saturatingSucc s.provisionalCount then
        some (.error ⟨x.provisionalExhaustedError⟩) else none }
  | waited (sleeps : List Action) (h : ∀ action ∈ sleeps, ∃ wait, action = .slept wait) :
    Read x s sleeps s
  | failed (error : ImsError) : Read x s [] { s with result := some (.error error) }

/-- What may come of a turn. -/
inductive Turned (x : Exchange) (s : State) (t : Turn) : List Action × State → Prop
  | expired (h : x.deadline ≤ t.now) :
    Turned x s t ([], { s with result := some (.error ⟨x.receiveError⟩) })
  | sendFailed (before : t.now < x.deadline) (request : Bytes)
      (hrequest : x.retransmitRequest = some request) (hdue : s.nextRetransmit ≤ t.now)
      (error : ImsError) :
    Turned x s t ([.sent request t.now], { s with result := some (.error error) })
  | sent (before : t.now < x.deadline) (request : Bytes)
      (hrequest : x.retransmitRequest = some request) (hdue : s.nextRetransmit ≤ t.now) :
    Turned x s t ([.sent request t.now], { s with
      retransmitInterval := min (s.retransmitInterval * 2) t2
      nextRetransmit := t.now + min (s.retransmitInterval * 2) t2 })
  | read (before : t.now < x.deadline)
      (hidle : ∀ request, x.retransmitRequest = some request → t.now < s.nextRetransmit)
      (actions : List Action) (s' : State) (h : Read x s actions s') :
    Turned x s t (.read t.now (readUntil x s - t.now) :: actions, s')

theorem read_of_receive (x : Exchange) (s : State) (frame : Bytes) :
    Read x s (.received frame :: (receive x s frame).1) (receive x s frame).2 := by
  rw [receive]
  cases hexpects : x.expects frame with
  | false => exact Read.other frame hexpects
  | true =>
    cases hstatus : parseStatus frame with
    | error error => exact Read.malformed frame hexpects error hstatus
    | ok status =>
      dsimp only
      by_cases hfinal : 100 ≤ status ∧ status ≤ 199
      · rw [if_neg (not_not_intro hfinal)]
        exact Read.provisional frame hexpects status hstatus hfinal
      · rw [if_pos hfinal]
        exact Read.final frame hexpects status hstatus hfinal

/-- **One turn.** -/
theorem turned (x : Exchange) (s : State) (t : Turn) : Turned x s t (turn x s t) := by
  rw [turn]
  by_cases hexpired : x.deadline ≤ t.now
  · rw [if_pos hexpired]
    exact Turned.expired hexpired
  rw [if_neg hexpired]
  have hbefore : t.now < x.deadline := not_le.mp hexpired
  cases hfilter : x.retransmitRequest.filter fun _ => s.nextRetransmit ≤ t.now with
  | some request =>
    obtain ⟨hrequest, hdue⟩ := filter_eq_some_iff.mp hfilter
    have hdue : s.nextRetransmit ≤ t.now := of_decide_eq_true hdue
    cases t.sent with
    | error error => exact Turned.sendFailed hbefore request hrequest hdue _
    | ok _ => exact Turned.sent hbefore request hrequest hdue
  | none =>
    have hidle : ∀ request, x.retransmitRequest = some request → t.now < s.nextRetransmit := by
      intro request hrequest
      by_contra hdue
      have hdue : decide (s.nextRetransmit ≤ t.now) = true := decide_eq_true (not_lt.mp hdue)
      exact filter_eq_none_iff.mp hfilter request hrequest hdue
    have huntil : t.now < readUntil x s := by
      rw [readUntil]
      cases hrequest : x.retransmitRequest with
      | none => exact hbefore
      | some request => exact lt_min hbefore (hidle request hrequest)
    have hremaining : (readUntil x s).saturatingDurationSince t.now = readUntil x s - t.now := rfl
    have hsome : readUntil x s - t.now ≠ 0 := Nat.sub_ne_zero_of_lt huntil
    rw [hremaining, if_neg hsome]
    cases t.received with
    | ok frame => exact Turned.read hbefore hidle _ _ (read_of_receive x s frame)
    | error error =>
      dsimp only
      by_cases hretry : x.retransmitRequest.isSome ∧ isRegisterReadRetryable error
      · rw [if_pos hretry]
        refine Turned.read hbefore hidle _ s (Read.waited _ ?_)
        intro action haction
        split at haction
        · cases haction
        · exact ⟨_, mem_singleton.mp haction⟩
      · rw [if_neg hretry]
        exact Turned.read hbefore hidle [] _ (Read.failed _)

variable {s : State}

theorem step_over (x : Exchange) (t : Turn) {result : Except ImsError Bytes}
    (h : s.result = some result) : step x s t = ([], s) := by
  rw [step, h]
  rfl

theorem step_goes (x : Exchange) (t : Turn) (h : s.result = none) : step x s t = turn x s t := by
  rw [step, h]
  rfl

/-! ## The frames of a run -/

/-- The frame ends the transaction. -/
def Exchange.answers (x : Exchange) (frame : Bytes) : Bool := x.expects frame && isFinal frame

/-- The frame says that the answer is still to come. -/
def Exchange.holds (x : Exchange) (frame : Bytes) : Bool := x.expects frame && isProvisional frame

/-- What becomes of the frames a run has read, and what it has returned. -/
structure FramesKept (x : Exchange) (log : List Action) (result : Option (Except ImsError Bytes)) :
    Prop where
  /-- every frame of something else is handed back, once and in order, and no other -/
  requeued : requeuedFrames log = (delivered log).filter fun frame => !x.expects frame
  requeued_le : (requeuedFrames log).length ≤ 33
  held_le : (delivered log).countP x.holds ≤ 5
  returned : ∀ frame, result = some (.ok frame) ↔ (delivered log).find? x.answers = some frame

/-- The counters are those of the frames read, and a loop that goes on has not reached a bound. -/
structure Counted (x : Exchange) (log : List Action) (s : State) : Prop where
  kept : FramesKept x log s.result
  ignored : s.ignoredFrames = (requeuedFrames log).length
  ignored_le : s.result = none → s.ignoredFrames ≤ 32
  provisional : s.provisionalCount = (delivered log).countP x.holds
  provisional_le : s.result = none → s.provisionalCount ≤ 4

theorem counted_start (x : Exchange) (now : Instant) : Counted x [] (start now) where
  kept := by
    refine ⟨rfl, Nat.zero_le _, Nat.zero_le _, fun frame => ⟨fun hresult => ?_, fun hfind => ?_⟩⟩
    · cases hresult
    · cases hfind
  ignored := rfl
  ignored_le _ := Nat.zero_le _
  provisional := rfl
  provisional_le _ := Nat.zero_le _

variable {x : Exchange} {log : List Action}

/-- While the loop goes on no frame read so far ends the transaction. -/
theorem Counted.unanswered (h : Counted x log s)
    (hs : s.result = none) : (delivered log).find? x.answers = none := by
  cases hfind : (delivered log).find? x.answers with
  | none => rfl
  | some frame =>
    have hresult := (h.kept.returned frame).mpr hfind
    rw [hs] at hresult
    cases hresult

variable {s s' : State}

/-- Actions without a frame. -/
theorem Counted.quiet {log actions : List Action}
    (h : Counted x log s) (hs : s.result = none) (hread : delivered actions = [])
    (hrequeued : requeuedFrames actions = []) (hignored : s'.ignoredFrames = s.ignoredFrames)
    (hprovisional : s'.provisionalCount = s.provisionalCount)
    (hresult : ∀ frame, s'.result ≠ some (.ok frame)) : Counted x (log ++ actions) s' := by
  have hdelivered : delivered (log ++ actions) = delivered log := by
    rw [delivered_append, hread, append_nil]
  have hback : requeuedFrames (log ++ actions) = requeuedFrames log := by
    rw [requeuedFrames_append, hrequeued, append_nil]
  refine ⟨⟨?_, ?_, ?_, fun frame => ⟨fun hok => absurd hok (hresult frame), fun hfind => ?_⟩⟩,
    ?_, fun _ => ?_, ?_, fun _ => ?_⟩
  · rw [hback, hdelivered, h.kept.requeued]
  · rw [hback]
    exact h.kept.requeued_le
  · rw [hdelivered]
    exact h.kept.held_le
  · rw [hdelivered, h.unanswered hs] at hfind
    cases hfind
  · rw [hback, hignored, h.ignored]
  · rw [hignored]
    exact h.ignored_le hs
  · rw [hdelivered, hprovisional, h.provisional]
  · rw [hprovisional]
    exact h.provisional_le hs

variable {frame : Bytes}

/-- A frame of something else. -/
theorem Counted.other (h : Counted x log s)
    (hs : s.result = none) (now : Instant) (timeout : Duration) (hframe : x.expects frame = false) :
    Counted x (log ++ [Action.read now timeout, .received frame, .requeued frame]) { s with
      ignoredFrames := saturatingSucc s.ignoredFrames
      result := if maxIgnoredFrames < saturatingSucc s.ignoredFrames then
        some (.error ⟨x.receiveError⟩) else none } := by
  have hdelivered : delivered (log ++ [Action.read now timeout, .received frame, .requeued frame]) =
      delivered log ++ [frame] := delivered_append log _
  have hback : requeuedFrames (log ++ [Action.read now timeout, .received frame, .requeued frame]) =
      requeuedFrames log ++ [frame] := requeuedFrames_append log _
  have hanswers : x.answers frame = false := by rw [Exchange.answers, hframe, Bool.false_and]
  have hholds : x.holds frame = false := by rw [Exchange.holds, hframe, Bool.false_and]
  have hle := h.ignored_le hs
  have hsucc : saturatingSucc s.ignoredFrames = s.ignoredFrames + 1 := min_eq_left (by omega)
  have hcount : (delivered log ++ [frame]).countP x.holds = (delivered log).countP x.holds := by
    rw [countP_append, countP_singleton, hholds]
    rfl
  refine ⟨⟨?_, ?_, ?_, fun kept => ⟨fun hok => ?_, fun hfind => ?_⟩⟩, ?_, fun hgoes => ?_, ?_,
    fun _ => ?_⟩
  · rw [hback, hdelivered, h.kept.requeued, filter_append,
      filter_cons_of_pos (by rw [hframe]; rfl), filter_nil]
  · rw [hback, length_append, ← h.ignored]
    exact Nat.succ_le_succ hle
  · rw [hdelivered, hcount]
    exact h.kept.held_le
  · dsimp only at hok
    split at hok <;> cases hok
  · rw [hdelivered, find?_append, h.unanswered hs, none_or,
      find?_cons_of_neg (by rw [hanswers]; decide)] at hfind
    cases hfind
  · rw [hback, length_append, hsucc, h.ignored]
    rfl
  · dsimp only at hgoes ⊢
    split at hgoes
    · cases hgoes
    · exact not_lt.mp ‹_›
  · rw [hdelivered, hcount, h.provisional]
  · exact h.provisional_le hs

/-- A response of the transaction: it is kept, and ends the loop when it is final. -/
theorem Counted.own (h : Counted x log s)
    (hs : s.result = none) (now : Instant) (timeout : Duration)
    (hframe : x.expects frame = true) (hignored : s'.ignoredFrames = s.ignoredFrames)
    (hprovisional : s'.provisionalCount =
      s.provisionalCount + if isProvisional frame = true then 1 else 0)
    (hgoes : s'.result = none → s'.provisionalCount ≤ 4)
    (hresult : ∀ other, s'.result = some (.ok other) ↔ isFinal frame = true ∧ frame = other) :
    Counted x (log ++ [Action.read now timeout, .received frame]) s' := by
  have hdelivered : delivered (log ++ [Action.read now timeout, .received frame]) =
      delivered log ++ [frame] := delivered_append log _
  have hback : requeuedFrames (log ++ [Action.read now timeout, .received frame]) =
      requeuedFrames log := by
    rw [requeuedFrames_append]
    exact append_nil _
  have hholds : x.holds frame = isProvisional frame := by
    rw [Exchange.holds, hframe, Bool.true_and]
  have hanswers : x.answers frame = isFinal frame := by
    rw [Exchange.answers, hframe, Bool.true_and]
  have hcount : (delivered log ++ [frame]).countP x.holds = s'.provisionalCount := by
    rw [countP_append, countP_singleton, hholds, hprovisional, h.provisional]
  refine ⟨⟨?_, ?_, ?_, fun other => ?_⟩, ?_, fun _ => ?_, ?_, hgoes⟩
  · rw [hback, hdelivered, h.kept.requeued, filter_append,
      filter_cons_of_neg (by rw [hframe]; decide), filter_nil, append_nil]
  · rw [hback]
    exact h.kept.requeued_le
  · have hle := h.provisional_le hs
    rw [hdelivered, hcount, hprovisional]
    split <;> omega
  · rw [hresult, hdelivered, find?_append, h.unanswered hs, none_or, find?_singleton, hanswers]
    split <;> simp_all
  · rw [hback, hignored, h.ignored]
  · rw [hignored]
    exact h.ignored_le hs
  · rw [hdelivered, hcount]

theorem isFinal_eq_not {status : ℕ} (hstatus : parseStatus frame = .ok status) :
    isFinal frame = !isProvisional frame := by
  rw [isFinal, isProvisional, hstatus]
  exact decide_not

/-- A read. -/
theorem Counted.read {log actions : List Action}
    (h : Counted x log s) (hs : s.result = none) (now : Instant) (timeout : Duration)
    (hread : Read x s actions s') : Counted x (log ++ Action.read now timeout :: actions) s' := by
  cases hread with
  | other frame hframe => exact h.other hs now timeout hframe
  | malformed frame hframe error hstatus =>
    refine h.own hs now timeout hframe rfl ?_ (fun hgoes => by cases hgoes) fun other => ?_
    · rw [isProvisional, hstatus]
      rfl
    · rw [isFinal, hstatus]
      exact ⟨fun hok => (by cases hok), fun hok => (by cases hok.1)⟩
  | final frame hframe status hstatus hfinal =>
    have hprovisional : isProvisional frame = false := by
      rw [isProvisional, hstatus]
      exact decide_eq_false hfinal
    refine h.own hs now timeout hframe rfl ?_ (fun hgoes => by cases hgoes) fun other => ?_
    · rw [hprovisional]
      rfl
    · rw [isFinal_eq_not hstatus, hprovisional]
      exact ⟨fun hok => ⟨rfl, Except.ok.inj (some.inj hok)⟩, fun hok => by rw [hok.2]⟩
  | provisional frame hframe status hstatus hprovisional =>
    have hheld : isProvisional frame = true := by
      rw [isProvisional, hstatus]
      exact decide_eq_true hprovisional
    have hle := h.provisional_le hs
    have hsucc : saturatingSucc s.provisionalCount = s.provisionalCount + 1 :=
      min_eq_left (by omega)
    refine h.own hs now timeout hframe rfl ?_ (fun hgoes => ?_) fun other => ?_
    · rw [hheld]
      exact hsucc
    · dsimp only at hgoes ⊢
      split at hgoes
      · cases hgoes
      · exact not_lt.mp ‹_›
    · rw [isFinal_eq_not hstatus, hheld]
      refine ⟨fun hok => ?_, fun hok => by cases hok.1⟩
      split at hok <;> cases hok
  | waited _ hsleeps =>
    have hdelivered : delivered actions = [] := filterMap_eq_nil_iff.mpr fun action hmem => by
      obtain ⟨wait, rfl⟩ := hsleeps action hmem
      rfl
    have hrequeued : requeuedFrames actions = [] :=
      filterMap_eq_nil_iff.mpr fun action hmem => by
        obtain ⟨wait, rfl⟩ := hsleeps action hmem
        rfl
    refine h.quiet hs hdelivered hrequeued rfl rfl fun frame hok => ?_
    rw [hs] at hok
    cases hok
  | failed error => exact h.quiet hs rfl rfl rfl rfl fun frame hok => by cases hok

/-- One turn. -/
theorem Counted.step (h : Counted x log s)
    (t : Turn) : Counted x (log ++ (step x s t).1) (step x s t).2 := by
  cases hs : s.result with
  | some result =>
    rw [step_over x t hs, append_nil]
    exact h
  | none =>
    rw [step_goes x t hs]
    generalize hturn : turn x s t = turned
    have hcases := hturn ▸ RegisterWait.turned x s t
    cases hcases with
    | expired => exact h.quiet hs rfl rfl rfl rfl fun frame hok => by cases hok
    | sendFailed => exact h.quiet hs rfl rfl rfl rfl fun frame hok => by cases hok
    | sent =>
      refine h.quiet hs rfl rfl rfl rfl fun frame hok => ?_
      rw [hs] at hok
      cases hok
    | read _ _ actions s' hread => exact h.read hs _ _ hread

/-! ## The repetitions -/

/-- What a run has sent. -/
structure Repeated (x : Exchange) (now : Instant) (log : List Action) : Prop where
  /-- the request, as it is -/
  request : ∀ entry ∈ sends log, x.retransmitRequest = some entry.1
  /-- each time when it was due, and before the deadline -/
  spaced : ∀ front entry back, sends log = front ++ entry :: back →
    due now front ≤ entry.2 ∧ entry.2 < x.deadline

/-- While the loop goes on its timer is the one the repetitions sent so far set. -/
structure Timed (x : Exchange) (now : Instant) (log : List Action) (s : State) : Prop where
  repeated : Repeated x now log
  interval : s.result = none → s.retransmitInterval = interval (sends log).length
  next : s.result = none → s.nextRetransmit = due now (sends log)

theorem timed_start (x : Exchange) (now : Instant) : Timed x now [] (start now) where
  repeated := by
    refine ⟨fun entry hentry => ?_, fun front entry back hsplit => ?_⟩
    · cases hentry
    · exact absurd hsplit.symm (append_ne_nil_of_right_ne_nil front (cons_ne_nil _ _))
  interval _ := interval_zero.symm
  next _ := by
    change now + t1 = now + RegisterWait.interval 0
    rw [interval_zero]

variable {now : Instant}

/-- Actions that send nothing. -/
theorem Timed.quiet {log actions : List Action}
    (h : Timed x now log s) (hs : s.result = none) (hactions : sends actions = [])
    (hinterval : s'.retransmitInterval = s.retransmitInterval)
    (hnext : s'.nextRetransmit = s.nextRetransmit) : Timed x now (log ++ actions) s' := by
  have hsends : sends (log ++ actions) = sends log := by
    rw [sends_append, hactions, append_nil]
  refine ⟨⟨?_, ?_⟩, fun _ => ?_, fun _ => ?_⟩
  · rw [hsends]
    exact h.repeated.request
  · rw [hsends]
    exact h.repeated.spaced
  · rw [hsends, hinterval, h.interval hs]
  · rw [hsends, hnext, h.next hs]

/-- One more repetition of the request when it is due. -/
theorem Timed.repeats (h : Timed x now log s) (hs : s.result = none) {t : Instant} {request : Bytes}
    (hrequest : x.retransmitRequest = some request) (hdue : s.nextRetransmit ≤ t)
    (hbefore : t < x.deadline) : Repeated x now (log ++ [Action.sent request t]) := by
  have hsends : sends (log ++ [Action.sent request t]) = sends log ++ [(request, t)] :=
    sends_append log _
  refine ⟨fun entry hentry => ?_, fun front entry back hsplit => ?_⟩
  · rw [hsends] at hentry
    rcases mem_append.mp hentry with hentry | hentry
    · exact h.repeated.request entry hentry
    · rw [mem_singleton.mp hentry]
      exact hrequest
  · rw [hsends] at hsplit
    rcases eq_nil_or_concat' back with rfl | ⟨back, last, rfl⟩
    · obtain ⟨hfront, hentry⟩ := append_inj' hsplit rfl
      obtain rfl := singleton_inj.mp hentry
      rw [← hfront, ← h.next hs]
      exact ⟨hdue, hbefore⟩
    · rw [← cons_append, ← append_assoc] at hsplit
      exact h.repeated.spaced front entry back (append_inj' hsplit rfl).1

theorem Read.sends {actions : List Action} (h : Read x s actions s') : sends actions = [] := by
  cases h with
  | waited _ hsleeps =>
    refine filterMap_eq_nil_iff.mpr fun action hmem => ?_
    obtain ⟨wait, rfl⟩ := hsleeps action hmem
    rfl
  | _ => rfl

theorem Read.timer {actions : List Action} (h : Read x s actions s') :
    s'.retransmitInterval = s.retransmitInterval ∧ s'.nextRetransmit = s.nextRetransmit := by
  cases h <;> exact ⟨rfl, rfl⟩

/-- One turn. -/
theorem Timed.step
    (h : Timed x now log s) (t : Turn) : Timed x now (log ++ (step x s t).1) (step x s t).2 := by
  cases hs : s.result with
  | some result =>
    rw [step_over x t hs, append_nil]
    exact h
  | none =>
    rw [step_goes x t hs]
    generalize hturn : turn x s t = turned
    have hcases := hturn ▸ RegisterWait.turned x s t
    cases hcases with
    | expired => exact h.quiet hs rfl rfl rfl
    | sendFailed hbefore request hrequest hdue error =>
      exact ⟨h.repeats hs hrequest hdue hbefore, fun hgoes => (by cases hgoes),
        fun hgoes => (by cases hgoes)⟩
    | sent hbefore request hrequest hdue =>
      have hsends : sends (log ++ [Action.sent request t.now]) = sends log ++ [(request, t.now)] :=
        sends_append log _
      have hinterval : min (s.retransmitInterval * 2) t2 =
          RegisterWait.interval (sends (log ++ [Action.sent request t.now])).length := by
        rw [h.interval hs, interval_succ, hsends, length_append]
        rfl
      refine ⟨h.repeats hs hrequest hdue hbefore, fun _ => hinterval, fun _ => ?_⟩
      rw [due, hinterval, hsends, getLast?_concat]
      rfl
    | read _ _ actions s' hread =>
      exact h.quiet hs hread.sends hread.timer.1 hread.timer.2

/-! ## Runs -/

/-- What a run of the loop does to the channel. -/
def actions (x : Exchange) (now : Instant) (turns : List Turn) : List Action :=
  (trace (step x) (start now) turns).flatMap Prod.snd

/-- Where it leads. -/
def after (x : Exchange) (now : Instant) (turns : List Turn) : State :=
  run (step x) (start now) turns

/-- When a read has to end, after a run. -/
def readEnd (x : Exchange) (now : Instant) (log : List Action) : Instant :=
  if x.retransmitRequest.isSome then min x.deadline (due now (sends log)) else x.deadline

/-- The next turn of a loop that goes on: what it does is settled by the clock, the deadline and the
requests sent so far. -/
structure NextTurn (x : Exchange) (now : Instant) (log : List Action) (s : State) (t : Turn) :
    Prop where
  expired : s.result = none → x.deadline ≤ t.now →
    (step x s t).1 = [] ∧ (step x s t).2.result = some (.error ⟨x.receiveError⟩)
  repeats : s.result = none → t.now < x.deadline → ∀ request, x.retransmitRequest = some request →
    due now (sends log) ≤ t.now → (step x s t).1 = [.sent request t.now]
  waits : s.result = none → t.now < readEnd x now log →
    ∃ rest, (step x s t).1 = .read t.now (readEnd x now log - t.now) :: rest ∧ sends rest = []

theorem Timed.nextTurn (h : Timed x now log s) (t : Turn) : NextTurn x now log s t := by
  refine ⟨fun hs hexpired => ?_, fun hs hbefore request hrequest hdue => ?_,
    fun hs hwaits => ?_⟩ <;>
    rw [step_goes x t hs] <;>
    generalize hturn : turn x s t = turned <;>
    have hcases := hturn ▸ RegisterWait.turned x s t
  · cases hcases with
    | expired => exact ⟨rfl, rfl⟩
    | sendFailed hbefore => exact absurd hbefore (not_lt.mpr hexpired)
    | sent hbefore => exact absurd hbefore (not_lt.mpr hexpired)
    | read hbefore => exact absurd hbefore (not_lt.mpr hexpired)
  · cases hcases with
    | expired hexpired => exact absurd hbefore (not_lt.mpr hexpired)
    | sendFailed _ other hother =>
      rw [some.inj (hother.symm.trans hrequest)]
    | sent _ other hother =>
      rw [some.inj (hother.symm.trans hrequest)]
    | read _ hidle =>
      rw [← h.next hs] at hdue
      exact absurd (hidle request hrequest) (not_lt.mpr hdue)
  · have hend : readUntil x s = readEnd x now log := by rw [readUntil, readEnd, h.next hs]
    have hwaits : t.now < readUntil x s := hend ▸ hwaits
    have hbefore : t.now < x.deadline := by
      rw [readUntil] at hwaits
      split at hwaits
      · exact hwaits.trans_le (min_le_left _ _)
      · exact hwaits
    have hidle : ∀ request, x.retransmitRequest = some request → t.now < s.nextRetransmit := by
      intro request hrequest
      rw [readUntil, if_pos (by rw [hrequest]; rfl)] at hwaits
      exact hwaits.trans_le (min_le_right _ _)
    cases hcases with
    | expired hexpired => exact absurd hbefore (not_lt.mpr hexpired)
    | sendFailed _ request hrequest hdue =>
      exact absurd (hidle request hrequest) (not_lt.mpr hdue)
    | sent _ request hrequest hdue =>
      exact absurd (hidle request hrequest) (not_lt.mpr hdue)
    | read _ _ actions s' hread =>
      rw [hend]
      exact ⟨actions, rfl, hread.sends⟩

/-- The counters and the timer of a run. -/
theorem counted_timed (x : Exchange) (now : Instant) (turns : List Turn) :
    Counted x (actions x now turns) (after x now turns) ∧
      Timed x now (actions x now turns) (after x now turns) := by
  -- by induction over the turns, each of which puts its actions at the end of the log
  refine @history_invariant _ _ _ (step x)
    (fun history s =>
      Counted x (history.flatMap Prod.snd) s ∧ Timed x now (history.flatMap Prod.snd) s)
    (start now) ⟨counted_start x now, timed_start x now⟩ (fun history s t h => ?_) turns
  rw [flatMap_append, flatMap_singleton]
  exact ⟨h.1.step t, h.2.step t⟩

/-- What a run has done, and what its next turn does. -/
structure Exchanged (x : Exchange) (now : Instant) (turns : List Turn) : Prop where
  frames : FramesKept x (actions x now turns) (after x now turns).result
  repeated : Repeated x now (actions x now turns)
  next : ∀ t, NextTurn x now (actions x now turns) (after x now turns) t

/-- **No frame is lost or stolen.** Whatever the channel and the clock give: of the frames read
those of the transaction are kept, at most five of them provisional, the others handed back once and
in order, at most 33, and the first final one is the result; the request is repeated as it is, an
interval after the time before and until the deadline, which no frame moves. -/
theorem recvFinal_exchanged (x : Exchange) (now : Instant) (turns : List Turn) :
    Exchanged x now turns :=
  have h := counted_timed x now turns
  ⟨h.1.kept, h.2.repeated, fun t => h.2.nextTurn t⟩

/-! ## Without a key -/

/-- A request that carries no Call-ID, so that there is no key. -/
def keylessExchange : Exchange :=
  sendRegisterAndReceive true "REGISTER initial".toUTF8.toList "ims_register_initial_send_failed"
    "ims_register_initial_receive_failed" "ims_register_initial_unexpected_status" 0

/-- The answer to an INVITE. -/
def inviteAnswer : Bytes := "SIP/2.0 200 OK\r\nCSeq: 1 INVITE\r\n\r\n".toUTF8.toList

/-- Any response ends an exchange without a key, and is not handed back. -/
theorem keylessExchange_takes :
    (after keylessExchange 0 [⟨0, .ok (), .ok inviteAnswer, 0⟩]).result = some (.ok inviteAnswer) ∧
      requeuedFrames (actions keylessExchange 0 [⟨0, .ok (), .ok inviteAnswer, 0⟩]) = [] ∧
      registerCseq inviteAnswer = none := by
  decide +kernel

end SimMaster.RegisterWait
