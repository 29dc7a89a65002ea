import SimMaster.Clock
import SimMaster.Machine

/-!
# Retransmission of IKE requests

A request that is not answered is sent again. Whether the time has come is decided by evaluating the
policy again and again while the exchange is outstanding: an evaluation looks at the time since the
request was first sent and at what the last one has left behind. It says to wait, to retransmit or
to give up. The number of retransmissions is bounded and giving up is final. The back-off interval
is compared with the time since the first transmission and not with that since the last one, so two
retransmissions may follow each other at once (`RetransmitPolicy.bounded_spaced_iff`).
-/

namespace SimMaster

open Rust List

inductive RetransmitDecision where
  | wait
  | retransmit
  | giveUp
  deriving DecidableEq

structure RetransmitPolicy where
  initialTimeoutMs : UInt64 := 500
  maxTimeoutMs : UInt64 := 8000
  maxAttempts : UInt8 := 5
  exchangeDeadlineMs : UInt64 := 30000
  deriving DecidableEq

structure RetransmitState where
  messageId : UInt32
  attempts : UInt8
  elapsedMs : UInt64
  nextTimeoutMs : UInt64
  decision : RetransmitDecision
  deriving DecidableEq

/-- `Duration::as_millis`. -/
def asMillis (d : Duration) : ℕ := d / 1000000

/-- `elapsed.as_millis().min(u128::from(u64::MAX)) as u64`. -/
def millisU64 (d : Duration) : UInt64 := UInt64.ofNat (min (asMillis d) (2 ^ 64 - 1))

/-- `u64::saturating_mul`. -/
def saturatingMul (a b : UInt64) : UInt64 := UInt64.ofNat (min (a.toNat * b.toNat) (2 ^ 64 - 1))

/-- `u8::saturating_add`. -/
def saturatingAdd (a b : UInt8) : UInt8 := UInt8.ofNat (min (a.toNat + b.toNat) (2 ^ 8 - 1))

theorem toNat_millisU64 (d : Duration) : (millisU64 d).toNat = min (d / 1000000) (2 ^ 64 - 1) :=
  UInt64.toNat_ofNat_of_lt' (by rw [UInt64.size]; omega)

theorem toNat_saturatingMul (a b : UInt64) :
    (saturatingMul a b).toNat = min (a.toNat * b.toNat) (2 ^ 64 - 1) :=
  UInt64.toNat_ofNat_of_lt' (by rw [UInt64.size]; omega)

theorem toNat_saturatingAdd (a b : UInt8) :
    (saturatingAdd a b).toNat = min (a.toNat + b.toNat) (2 ^ 8 - 1) :=
  UInt8.toNat_ofNat_of_lt' (by rw [UInt8.size]; omega)

namespace RetransmitPolicy

variable (policy : RetransmitPolicy)

def initialState (messageId : UInt32) : RetransmitState where
  messageId := messageId
  attempts := 0
  elapsedMs := 0
  nextTimeoutMs := policy.initialTimeoutMs
  decision := .wait

def evaluate (state : RetransmitState) (elapsed : Duration) : RetransmitState :=
  let elapsedMs := millisU64 elapsed
  if policy.exchangeDeadlineMs ≤ elapsedMs ∨ policy.maxAttempts ≤ state.attempts then
    { state with elapsedMs, decision := .giveUp }
  else if elapsedMs < state.nextTimeoutMs then
    { state with elapsedMs, decision := .wait }
  else
    let attempts := saturatingAdd state.attempts 1
    { messageId := state.messageId
      attempts, elapsedMs
      nextTimeoutMs := min (saturatingMul state.nextTimeoutMs 2) policy.maxTimeoutMs
      decision := if policy.maxAttempts ≤ attempts then .giveUp else .retransmit }

/-- The evaluations of one exchange, each with the time since the first transmission and the state
it has left behind. -/
def evaluations (messageId : UInt32) (times : List Duration) : List (Duration × RetransmitState) :=
  Machine.trace (fun state elapsed =>
    (policy.evaluate state elapsed, policy.evaluate state elapsed))
    (policy.initialState messageId) times

/-- The state after them. -/
def reached (messageId : UInt32) (times : List Duration) : RetransmitState :=
  Machine.run (fun state elapsed => (policy.evaluate state elapsed, policy.evaluate state elapsed))
    (policy.initialState messageId) times

end RetransmitPolicy

/-- The evaluations that say to retransmit. -/
def retransmissions (evaluations : List (Duration × RetransmitState)) :
    List (Duration × RetransmitState) :=
  evaluations.filter fun entry => entry.2.decision = .retransmit

/-- At most so many retransmissions, and none after giving up. -/
structure Bounded (maxAttempts : UInt8) (evaluations : List (Duration × RetransmitState)) :
    Prop where
  few : (retransmissions evaluations).length ≤ maxAttempts.toNat
  final : evaluations.Pairwise fun entry later =>
    entry.2.decision = .giveUp → later.2.decision = .giveUp

/-- A retransmission leaves the back-off interval behind, and the next one comes no earlier. -/
def Spaced (evaluations : List (Duration × RetransmitState)) : Prop :=
  (retransmissions evaluations).IsChain fun entry next =>
    entry.1 + Duration.fromMillis entry.2.nextTimeoutMs.toNat ≤ next.1

/-! ## One evaluation -/

namespace RetransmitPolicy

variable {policy : RetransmitPolicy} {state : RetransmitState} {elapsed : Duration}

/-- The exchange is over. -/
def Spent (policy : RetransmitPolicy) (state : RetransmitState) : Prop :=
  policy.exchangeDeadlineMs ≤ state.elapsedMs ∨ policy.maxAttempts ≤ state.attempts

theorem evaluate_elapsedMs : (policy.evaluate state elapsed).elapsedMs = millisU64 elapsed := by
  rw [evaluate]
  split_ifs <;> rfl

/-- What an evaluation does: the exchange is over, or it is too early, or one more attempt is
counted. -/
theorem evaluate_cases (policy : RetransmitPolicy) (state : RetransmitState) (elapsed : Duration) :
    ((policy.exchangeDeadlineMs ≤ millisU64 elapsed ∨ policy.maxAttempts ≤ state.attempts) ∧
      policy.evaluate state elapsed =
        { state with elapsedMs := millisU64 elapsed, decision := .giveUp }) ∨
    policy.evaluate state elapsed =
      { state with elapsedMs := millisU64 elapsed, decision := .wait } ∨
    (millisU64 elapsed).toNat < policy.exchangeDeadlineMs.toNat ∧
      state.attempts.toNat < policy.maxAttempts.toNat ∧
      state.nextTimeoutMs.toNat ≤ (millisU64 elapsed).toNat ∧
      (policy.evaluate state elapsed).attempts.toNat = state.attempts.toNat + 1 ∧
      (policy.evaluate state elapsed).nextTimeoutMs.toNat =
        min (2 * state.nextTimeoutMs.toNat) policy.maxTimeoutMs.toNat ∧
      (policy.evaluate state elapsed).decision =
        if policy.maxAttempts.toNat ≤ state.attempts.toNat + 1 then .giveUp else .retransmit := by
  by_cases hspent : policy.exchangeDeadlineMs ≤ millisU64 elapsed ∨
    policy.maxAttempts ≤ state.attempts
  · exact Or.inl ⟨hspent, by rw [evaluate]; exact if_pos hspent⟩
  · by_cases hearly : millisU64 elapsed < state.nextTimeoutMs
    · exact Or.inr (Or.inl (by rw [evaluate]; exact (if_neg hspent).trans (if_pos hearly)))
    · obtain ⟨hdeadline, hattempts⟩ := not_or.mp hspent
      rw [UInt64.not_le, UInt64.lt_iff_toNat_lt] at hdeadline
      rw [UInt8.not_le, UInt8.lt_iff_toNat_lt] at hattempts
      have hdue := UInt64.le_iff_toNat_le.mp (UInt64.not_lt.mp hearly)
      have hcount : (saturatingAdd state.attempts 1).toNat = state.attempts.toNat + 1 := by
        have hmax := policy.maxAttempts.toNat_lt
        rw [toNat_saturatingAdd, UInt8.toNat_one]
        omega
      have hevaluate : policy.evaluate state elapsed =
          { messageId := state.messageId
            attempts := saturatingAdd state.attempts 1
            elapsedMs := millisU64 elapsed
            nextTimeoutMs := min (saturatingMul state.nextTimeoutMs 2) policy.maxTimeoutMs
            decision := if policy.maxAttempts ≤ saturatingAdd state.attempts 1 then .giveUp
              else .retransmit } := by
        exact (if_neg hspent).trans (if_neg hearly)
      refine Or.inr (Or.inr ⟨hdeadline, hattempts, hdue, ?_, ?_, ?_⟩)
      · rw [hevaluate]
        exact hcount
      · have hmax := policy.maxTimeoutMs.toNat_lt
        have htwo : (2 : UInt64).toNat = 2 := rfl
        rw [hevaluate, UInt64.toNat_min, toNat_saturatingMul, htwo]
        omega
      · rw [hevaluate]
        simp only [UInt8.le_iff_toNat_le, hcount]

theorem spent_of_giveUp (h : (policy.evaluate state elapsed).decision = .giveUp) :
    policy.Spent (policy.evaluate state elapsed) := by
  rcases policy.evaluate_cases state elapsed with
    ⟨hspent, heq⟩ | heq | ⟨-, -, -, hattempts, -, hdecision⟩
  · rw [heq]
    exact hspent
  · rw [heq] at h
    cases h
  · rw [h] at hdecision
    refine Or.inr (UInt8.le_iff_toNat_le.mpr ?_)
    rw [hattempts]
    by_contra hlast
    rw [if_neg hlast] at hdecision
    cases hdecision

/-- Once the exchange is over it stays over. -/
theorem giveUp_of_spent (h : policy.Spent state) (helapsed : state.elapsedMs ≤ millisU64 elapsed) :
    (policy.evaluate state elapsed).decision = .giveUp := by
  have hspent : policy.exchangeDeadlineMs ≤ millisU64 elapsed ∨
      policy.maxAttempts ≤ state.attempts :=
    h.imp_left fun hdeadline => UInt64.le_trans hdeadline helapsed
  have heq : policy.evaluate state elapsed =
      { state with elapsedMs := millisU64 elapsed, decision := .giveUp } := if_pos hspent
  rw [heq]

/-- What a retransmission finds and leaves behind. -/
theorem evaluate_of_retransmit (h : (policy.evaluate state elapsed).decision = .retransmit) :
    (millisU64 elapsed).toNat < policy.exchangeDeadlineMs.toNat ∧
      state.attempts.toNat + 1 < policy.maxAttempts.toNat ∧
      state.nextTimeoutMs.toNat ≤ (millisU64 elapsed).toNat ∧
      (policy.evaluate state elapsed).attempts.toNat = state.attempts.toNat + 1 ∧
      (policy.evaluate state elapsed).nextTimeoutMs.toNat =
        min (2 * state.nextTimeoutMs.toNat) policy.maxTimeoutMs.toNat := by
  rcases policy.evaluate_cases state elapsed with
    ⟨-, heq⟩ | heq | ⟨hdeadline, -, hdue, hattempts, hnext, hdecision⟩
  · rw [heq] at h
    cases h
  · rw [heq] at h
    cases h
  · refine ⟨hdeadline, ?_, hdue, hattempts, hnext⟩
    by_contra hlast
    rw [h, if_pos (Nat.le_of_not_lt hlast)] at hdecision
    cases hdecision

/-! ## Runs -/

variable {messageId : UInt32} {times : List Duration}

theorem reached_concat : policy.reached messageId (times ++ [elapsed]) =
    policy.evaluate (policy.reached messageId times) elapsed := Machine.run_concat _ _ _ _

theorem evaluations_concat : policy.evaluations messageId (times ++ [elapsed]) =
    policy.evaluations messageId times ++
      [(elapsed, policy.evaluate (policy.reached messageId times) elapsed)] :=
  Machine.trace_concat _ _ _ _

theorem retransmissions_concat (evaluations : List (Duration × RetransmitState)) :
    retransmissions (evaluations ++ [(elapsed, state)]) =
      if state.decision = .retransmit then retransmissions evaluations ++ [(elapsed, state)]
      else retransmissions evaluations := by
  rw [retransmissions, filter_append]
  split
  · next h => rw [filter_singleton, decide_eq_true h]; rfl
  · next h => rw [filter_singleton, decide_eq_false h]; exact append_nil _

theorem sorted_of_concat (h : (times ++ [elapsed]).Pairwise (· ≤ ·)) :
    times.Pairwise (· ≤ ·) ∧ ∀ earlier ∈ times, earlier ≤ elapsed := by
  obtain ⟨hsorted, -, hle⟩ := pairwise_append.mp h
  exact ⟨hsorted, fun earlier hearlier => hle earlier hearlier elapsed (mem_singleton_self _)⟩

theorem millisU64_mono {d d' : Duration} (h : d ≤ d') :
    (millisU64 d).toNat ≤ (millisU64 d').toNat := by
  rw [toNat_millisU64, toNat_millisU64]
  exact min_le_min_right _ (Nat.div_le_div_right h)

theorem elapsedMs_reached (h : ∀ earlier ∈ times, earlier ≤ elapsed) :
    (policy.reached messageId times).elapsedMs.toNat ≤ (millisU64 elapsed).toNat := by
  rcases eq_nil_or_concat times with rfl | ⟨front, last, rfl⟩
  · exact Nat.zero_le _
  · rw [concat_eq_append, reached_concat, evaluate_elapsedMs]
    exact millisU64_mono (h last (by simp))

theorem length_retransmissions (policy : RetransmitPolicy) (messageId : UInt32)
    (times : List Duration) : (retransmissions (policy.evaluations messageId times)).length ≤
        (policy.reached messageId times).attempts.toNat ∧
      (retransmissions (policy.evaluations messageId times)).length ≤
        policy.maxAttempts.toNat - 1 := by
  induction times using reverseRecOn with
  | nil => exact ⟨Nat.zero_le _, Nat.zero_le _⟩
  | append_singleton times elapsed ih =>
    obtain ⟨hattempts, hmax⟩ := ih
    rw [evaluations_concat, retransmissions_concat, reached_concat]
    split
    · next h =>
      obtain ⟨-, hlast, -, hcount, -⟩ := evaluate_of_retransmit h
      rw [length_append, length_singleton, hcount]
      omega
    · refine ⟨hattempts.trans ?_, hmax⟩
      rcases policy.evaluate_cases (policy.reached messageId times) elapsed with
        ⟨-, heq⟩ | heq | ⟨-, -, -, hcount, -⟩
      · rw [heq]
      · rw [heq]
      · omega

theorem spent_reached (hsorted : times.Pairwise (· ≤ ·))
    (h : ∃ entry ∈ policy.evaluations messageId times, entry.2.decision = .giveUp) :
    policy.Spent (policy.reached messageId times) := by
  induction times using reverseRecOn with
  | nil =>
    obtain ⟨entry, hentry, -⟩ := h
    cases hentry
  | append_singleton times elapsed ih =>
    obtain ⟨hsorted, hle⟩ := sorted_of_concat hsorted
    obtain ⟨entry, hentry, hgiveUp⟩ := h
    rw [evaluations_concat] at hentry
    rw [reached_concat]
    rcases mem_append.mp hentry with hentry | hentry
    · have hspent := ih hsorted ⟨entry, hentry, hgiveUp⟩
      exact spent_of_giveUp
        (giveUp_of_spent hspent (UInt64.le_iff_toNat_le.mpr (elapsedMs_reached hle)))
    · rw [mem_singleton.mp hentry] at hgiveUp
      exact spent_of_giveUp hgiveUp

theorem evaluations_final (hsorted : times.Pairwise (· ≤ ·)) :
    (policy.evaluations messageId times).Pairwise fun entry later =>
      entry.2.decision = .giveUp → later.2.decision = .giveUp := by
  induction times using reverseRecOn with
  | nil => exact Pairwise.nil
  | append_singleton times elapsed ih =>
    obtain ⟨hsorted, hle⟩ := sorted_of_concat hsorted
    rw [evaluations_concat]
    refine pairwise_append.mpr ⟨ih hsorted, pairwise_singleton _ _, ?_⟩
    intro entry hentry later hlater hgiveUp
    rw [mem_singleton.mp hlater]
    exact giveUp_of_spent (spent_reached hsorted ⟨entry, hentry, hgiveUp⟩)
      (UInt64.le_iff_toNat_le.mpr (elapsedMs_reached hle))

/-! ## The intervals -/

/-- The second timeout. -/
def secondTimeoutMs (policy : RetransmitPolicy) : ℕ :=
  min (2 * policy.initialTimeoutMs.toNat) policy.maxTimeoutMs.toNat

/-- What the number of attempts says about the timeouts so far. -/
structure Counted (policy : RetransmitPolicy) (state : RetransmitState) : Prop where
  untried : state.attempts.toNat = 0 → state.nextTimeoutMs = policy.initialTimeoutMs
  tried : 1 ≤ state.attempts.toNat → policy.initialTimeoutMs.toNat ≤ state.elapsedMs.toNat
  once : state.attempts.toNat = 1 → state.nextTimeoutMs.toNat = policy.secondTimeoutMs
  twice : 2 ≤ state.attempts.toNat → policy.secondTimeoutMs ≤ state.elapsedMs.toNat

/-- An evaluation that counts no attempt. -/
theorem Counted.of_elapsed (h : policy.Counted state) {next : RetransmitState}
    (hattempts : next.attempts = state.attempts)
    (htimeout : next.nextTimeoutMs = state.nextTimeoutMs)
    (helapsed : state.elapsedMs.toNat ≤ next.elapsedMs.toNat) : policy.Counted next where
  untried := by
    rw [hattempts, htimeout]
    exact h.untried
  tried htried := (h.tried (hattempts ▸ htried)).trans helapsed
  once := by
    rw [hattempts, htimeout]
    exact h.once
  twice htwice := (h.twice (hattempts ▸ htwice)).trans helapsed

theorem Counted.evaluate (h : policy.Counted state)
    (helapsed : state.elapsedMs.toNat ≤ (millisU64 elapsed).toNat) :
    policy.Counted (policy.evaluate state elapsed) := by
  have hnow : (policy.evaluate state elapsed).elapsedMs.toNat = (millisU64 elapsed).toNat :=
    congrArg UInt64.toNat policy.evaluate_elapsedMs
  rcases policy.evaluate_cases state elapsed with
    ⟨-, heq⟩ | heq | ⟨-, -, hdue, hattempts, hnext, -⟩
  · rw [heq]
    exact h.of_elapsed rfl rfl helapsed
  · rw [heq]
    exact h.of_elapsed rfl rfl helapsed
  · refine ⟨?_, ?_, ?_, ?_⟩
    · intro huntried
      omega
    · intro _
      rw [hnow]
      rcases Nat.eq_zero_or_pos state.attempts.toNat with hzero | hpos
      · rw [← h.untried hzero]
        exact hdue
      · exact (h.tried hpos).trans helapsed
    · intro honce
      rw [hnext, h.untried (by omega), secondTimeoutMs]
    · intro htwice
      rw [hnow]
      rcases Nat.lt_or_ge state.attempts.toNat 2 with hone | htwo
      · rw [← h.once (by omega)]
        exact hdue
      · exact (h.twice htwo).trans helapsed

theorem counted_reached (hsorted : times.Pairwise (· ≤ ·)) :
    policy.Counted (policy.reached messageId times) := by
  induction times using reverseRecOn with
  | nil =>
    refine ⟨fun _ => rfl, fun htried => ?_, fun honce => ?_, fun htwice => ?_⟩
    · cases htried
    · cases honce
    · cases htwice
  | append_singleton times elapsed ih =>
    obtain ⟨hsorted, hle⟩ := sorted_of_concat hsorted
    rw [reached_concat]
    exact (ih hsorted).evaluate (elapsedMs_reached hle)

/-- A deadline that leaves no time for a second retransmission. -/
theorem retransmissions_of_deadline (hsorted : times.Pairwise (· ≤ ·))
    (hdeadline : policy.exchangeDeadlineMs.toNat ≤ max policy.initialTimeoutMs.toNat
      policy.secondTimeoutMs) :
    (retransmissions (policy.evaluations messageId times)).length ≤ 1 := by
  induction times using reverseRecOn with
  | nil => exact Nat.zero_le _
  | append_singleton times elapsed ih =>
    obtain ⟨hsorted, hle⟩ := sorted_of_concat hsorted
    rw [evaluations_concat, retransmissions_concat]
    split
    · next h =>
      obtain ⟨hopen, -, hdue, -, -⟩ := evaluate_of_retransmit h
      have hcounted : policy.Counted (policy.reached messageId times) := counted_reached hsorted
      have helapsed : (policy.reached messageId times).elapsedMs.toNat ≤
          (millisU64 elapsed).toNat :=
        elapsedMs_reached hle
      have hattempts := (policy.length_retransmissions messageId times).1
      have htried := hcounted.tried
      have honce := hcounted.once
      have htwice := hcounted.twice
      rw [length_append, length_singleton]
      omega
    · exact ih hsorted

variable {entry : Duration × RetransmitState}

theorem mem_evaluations (h : entry ∈ policy.evaluations messageId times) :
    ∃ front, entry.2 = policy.evaluate (policy.reached messageId front) entry.1 :=
  Machine.mem_trace _ h

theorem nextTimeoutMs_reached (h : policy.initialTimeoutMs.toNat = 0) :
    (policy.reached messageId times).nextTimeoutMs.toNat = 0 := by
  induction times using reverseRecOn with
  | nil => exact h
  | append_singleton times elapsed ih =>
    rw [reached_concat]
    rcases policy.evaluate_cases (policy.reached messageId times) elapsed with
      ⟨-, heq⟩ | heq | ⟨-, -, -, -, hnext, -⟩
    · rw [heq]
      exact ih
    · rw [heq]
      exact ih
    · rw [hnext, ih]
      exact Nat.zero_min _

/-- With no second timeout no retransmission leaves an interval behind. -/
theorem nextTimeoutMs_eq_zero (hzero : policy.secondTimeoutMs = 0)
    (hentry : entry ∈ retransmissions (policy.evaluations messageId times)) :
    entry.2.nextTimeoutMs.toNat = 0 := by
  obtain ⟨hmem, hdecision⟩ := mem_filter.mp hentry
  obtain ⟨front, heq⟩ := mem_evaluations hmem
  have hretransmit := of_decide_eq_true hdecision
  rw [heq] at hretransmit ⊢
  obtain ⟨-, -, -, -, hnext⟩ := evaluate_of_retransmit hretransmit
  rw [secondTimeoutMs] at hzero
  rcases Nat.eq_zero_or_pos policy.maxTimeoutMs.toNat with hmax | hmax
  · rw [hnext, hmax]
    exact Nat.min_zero _
  · have hinitial : policy.initialTimeoutMs.toNat = 0 := by omega
    rw [hnext, nextTimeoutMs_reached hinitial]
    exact Nat.zero_min _

theorem spaced_of_one {evaluations : List (Duration × RetransmitState)}
    (h : (retransmissions evaluations).length ≤ 1) : Spaced evaluations := by
  rw [Spaced]
  match hlist : retransmissions evaluations with
  | [] => exact List.IsChain.nil
  | [entry] => exact isChain_singleton entry
  | _ :: _ :: _ =>
    rw [hlist] at h
    simp at h

theorem spaced_of_zero (hsorted : times.Pairwise (· ≤ ·)) (hzero : policy.secondTimeoutMs = 0) :
    Spaced (policy.evaluations messageId times) := by
  have htimes : (policy.evaluations messageId times).Pairwise fun entry later =>
      entry.1 ≤ later.1 := by
    rw [← pairwise_map (f := Prod.fst) (R := (· ≤ ·)), evaluations, Machine.map_fst_trace]
    exact hsorted
  have hordered : (retransmissions (policy.evaluations messageId times)).Pairwise
      fun entry later => entry.1 ≤ later.1 := htimes.filter _
  refine Pairwise.isChain (hordered.imp_of_mem ?_)
  intro entry later hentry _ hle
  rw [nextTimeoutMs_eq_zero hzero hentry, Duration.fromMillis, Nat.zero_mul, Nat.add_zero]
  exact hle

/-- The policy leaves room for a second retransmission after an interval. -/
def Repeats (policy : RetransmitPolicy) : Prop :=
  2 < policy.maxAttempts.toNat ∧
    max policy.initialTimeoutMs.toNat policy.secondTimeoutMs < policy.exchangeDeadlineMs.toNat ∧
    0 < policy.secondTimeoutMs

/-- An evaluation that is due and not the last attempt. -/
theorem evaluate_due (hopen : (millisU64 elapsed).toNat < policy.exchangeDeadlineMs.toNat)
    (hlast : state.attempts.toNat + 1 < policy.maxAttempts.toNat)
    (hdue : state.nextTimeoutMs.toNat ≤ (millisU64 elapsed).toNat) :
    (policy.evaluate state elapsed).decision = .retransmit := by
  have hspent : ¬(policy.exchangeDeadlineMs ≤ millisU64 elapsed ∨
      policy.maxAttempts ≤ state.attempts) := by
    rw [UInt64.le_iff_toNat_le, UInt8.le_iff_toNat_le]
    omega
  have hearly : ¬millisU64 elapsed < state.nextTimeoutMs := by
    rw [UInt64.lt_iff_toNat_lt]
    omega
  have hcount : (saturatingAdd state.attempts 1).toNat = state.attempts.toNat + 1 := by
    have hmax := policy.maxAttempts.toNat_lt
    rw [toNat_saturatingAdd, UInt8.toNat_one]
    omega
  have hattempts : ¬policy.maxAttempts ≤ saturatingAdd state.attempts 1 := by
    rw [UInt8.le_iff_toNat_le, hcount]
    omega
  rw [evaluate]
  dsimp only
  rw [if_neg hspent, if_neg hearly, if_neg hattempts]

/-- Two evaluations at one time, when the second timeout is over, both retransmit. -/
theorem not_spaced_of_repeats (h : policy.Repeats) (messageId : UInt32) :
    ∃ elapsed, ¬Spaced (policy.evaluations messageId [elapsed, elapsed]) := by
  obtain ⟨hattempts, hdeadline, hinterval⟩ := h
  have hmillis : (millisU64 (Duration.fromMillis
      (max policy.initialTimeoutMs.toNat policy.secondTimeoutMs))).toNat =
        max policy.initialTimeoutMs.toNat policy.secondTimeoutMs := by
    have hlt := policy.exchangeDeadlineMs.toNat_lt
    rw [toNat_millisU64, Duration.fromMillis, Nat.mul_div_cancel _ (by decide)]
    omega
  generalize Duration.fromMillis (max policy.initialTimeoutMs.toNat policy.secondTimeoutMs) =
    elapsed at hmillis
  have hfirst : (policy.evaluate (policy.initialState messageId) elapsed).decision = .retransmit :=
    evaluate_due (by omega) (by rw [initialState, UInt8.toNat_zero]; omega)
      (by rw [initialState]; dsimp only; omega)
  obtain ⟨-, -, -, hcount, hnext⟩ := evaluate_of_retransmit hfirst
  change _ = 0 + 1 at hcount
  change _ = policy.secondTimeoutMs at hnext
  have hsecond : (policy.evaluate (policy.evaluate (policy.initialState messageId) elapsed)
      elapsed).decision = .retransmit :=
    evaluate_due (by omega) (by omega) (by omega)
  refine ⟨elapsed, fun hspaced => ?_⟩
  have hboth : retransmissions (policy.evaluations messageId [elapsed, elapsed]) =
      [(elapsed, policy.evaluate (policy.initialState messageId) elapsed),
        (elapsed, policy.evaluate (policy.evaluate (policy.initialState messageId) elapsed)
          elapsed)] := by
    simp [evaluations, retransmissions, hfirst, hsecond]
  rw [Spaced, hboth, isChain_cons_cons] at hspaced
  have hgap := hspaced.1
  rw [hnext] at hgap
  exact absurd hgap (Nat.not_le.mpr (Nat.lt_add_of_pos_right
    (Nat.mul_pos hinterval (by decide))))

/-- **The bounds of retransmission.** Over evaluations at times that do not decrease there are at
most so many retransmissions as the policy allows attempts, and giving up is final. The
retransmissions keep the back-off interval between them in every such run if and only if the policy
does not leave room for a second retransmission after an interval. -/
theorem bounded_spaced_iff (policy : RetransmitPolicy) :
    (∀ messageId times, times.Pairwise (· ≤ ·) →
      Bounded policy.maxAttempts (policy.evaluations messageId times)) ∧
    ((∀ messageId times, times.Pairwise (· ≤ ·) → Spaced (policy.evaluations messageId times)) ↔
      (policy.maxAttempts.toNat ≤ 2 ∨ policy.exchangeDeadlineMs.toNat ≤
          max policy.initialTimeoutMs.toNat policy.secondTimeoutMs ∨
        policy.secondTimeoutMs = 0)) := by
  refine ⟨fun messageId times hsorted => ⟨?_, evaluations_final hsorted⟩, ?_, ?_⟩
  · exact (policy.length_retransmissions messageId times).2.trans (Nat.sub_le _ _)
  · intro hspaced
    by_contra hnot
    have hrepeats : policy.Repeats := by
      rw [Repeats]
      omega
    obtain ⟨elapsed, hcrowded⟩ := not_spaced_of_repeats hrepeats 0
    exact hcrowded (hspaced 0 [elapsed, elapsed] (by simp))
  · rintro (hattempts | hdeadline | hzero) messageId times hsorted
    · refine spaced_of_one ((policy.length_retransmissions messageId times).2.trans ?_)
      omega
    · exact spaced_of_one (retransmissions_of_deadline hsorted hdeadline)
    · exact spaced_of_zero hsorted hzero

theorem bounded_spaced_default : Bounded 5 (evaluations {} 1
      [Duration.fromMillis 500, Duration.fromMillis 1000]) ∧
    Spaced (evaluations { maxAttempts := 2 } 1
      [Duration.fromMillis 500, Duration.fromMillis 1000]) :=
  ⟨(bounded_spaced_iff {}).1 1 _ (by decide),
    (bounded_spaced_iff { maxAttempts := 2 }).2.mpr (Or.inl (by decide)) 1 _ (by decide)⟩

/-- With the default policy, two evaluations a second after the first transmission both retransmit,
though the first of them leaves an interval of a second behind. -/
theorem default_crowded : [Duration.fromMillis 1000, Duration.fromMillis 1000].Pairwise (· ≤ ·) ∧
    ¬Spaced (evaluations {} 1
      [Duration.fromMillis 1000, Duration.fromMillis 1000]) := by
  have hboth : retransmissions (evaluations {} 1
      [Duration.fromMillis 1000, Duration.fromMillis 1000]) =
        [(Duration.fromMillis 1000, ⟨1, 1, 1000, 1000, .retransmit⟩),
          (Duration.fromMillis 1000, ⟨1, 2, 1000, 2000, .retransmit⟩)] := by decide +kernel
  refine ⟨by decide, ?_⟩
  rw [Spaced, hboth, isChain_cons_cons]
  rintro ⟨hgap, -⟩
  revert hgap
  decide

end RetransmitPolicy

end SimMaster
