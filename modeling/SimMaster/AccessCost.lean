import SimMaster.AccessOneOwner

/-!
# The cost policy of the voice access router

A start or an acceptance goes to a leg other than VoWiFi only when nothing guards the call, or when
the home network has been seen for this very action a moment ago.
-/

namespace SimMaster.Trunk

open Rust List

/-! ## Modes -/

/-- The first mode is at least as strict as the second. -/
structure Stricter (mode other : ℕ) : Prop where
  strict : other = 1 → mode = 1
  guarded : other = 2 → mode = 1 ∨ mode = 2

theorem Stricter.refl (mode : ℕ) : Stricter mode mode := ⟨fun h => h, fun h => .inr h⟩

theorem Stricter.trans {m m' m'' : ℕ} (h : Stricter m m') (h' : Stricter m' m'') : Stricter m m'' :=
  ⟨fun h₁ => h.strict (h'.strict h₁), fun h₂ => (h'.guarded h₂).elim (fun h₁ => .inl (h.strict h₁))
    h.guarded⟩

theorem stricter_combinedMode (current initial : ℕ) :
    Stricter (combinedMode current initial) initial := by
  unfold combinedMode
  refine ⟨fun h => if_pos (.inl h), fun h => ?_⟩
  split
  next => exact .inl rfl
  next => exact .inr (if_pos (.inl h))

variable {current initial : ℕ}

theorem combinedMode_eq_one : combinedMode current initial = 1 ↔ initial = 1 ∨ current = 1 := by
  unfold combinedMode
  split
  next h => exact ⟨fun _ => h, fun _ => rfl⟩
  next h =>
    refine ⟨fun hone => ?_, fun h' => absurd h' h⟩
    split at hone <;> cases hone

theorem combinedMode_eq_zero : combinedMode current initial = 0 ↔
      (initial ≠ 1 ∧ initial ≠ 2) ∧ current ≠ 1 ∧ current ≠ 2 := by
  unfold combinedMode
  split
  next h => exact ⟨fun hzero => (by cases hzero), fun h' => by tauto⟩
  next h =>
    split
    next h₂ => exact ⟨fun hzero => (by cases hzero), fun h' => by tauto⟩
    next h₂ => exact ⟨fun _ => by tauto, fun _ => rfl⟩

namespace Env

/-! ## The modes of the calls -/

/-- The mode of a call stays as strict as at its start, and what waits is not for a call that was
started strictly. -/
structure Modes (s : Router) : Prop where
  stricter : ∀ id start mode, s.startModes.lookup id = some start →
    s.modes.lookup id = some mode → Stricter mode start
  waits : ∀ id item start, s.pending.lookup id = some item →
    s.startModes.lookup id = some start → start ≠ 1

/-- How an action goes on under the policy. -/
inductive Costs (env : Env) (s : Router) (input : Input) (d : Dispatch) : Prop where
  | direct (action_eq : input.action = some d.action)
      (mode_eq : d.mode = combinedMode env.gateMode (requestedMode d.action s))
      (guard : d.onlyWifi = true ∨ d.mode = 0)
      (free : d.action.isStart = true → s.pending.lookup d.action.callId = none)
  | resumed (index admission item home checkedAt)
      (input_eq : input = .joined index (some (home, checkedAt)))
      (ran : s.admissions[index]? = some admission)
      (waits : s.pending.lookup admission.callId = some item)
      (ticket : item.ticket = admission.ticket) (action_eq : d.action = item.action)
      (mode_eq : d.mode = combinedMode env.gateMode item.initial)
      (guard : d.onlyWifi = true ∨ d.mode = 0 ∨ d.mode = 2 ∧ home = true ∧
        env.now.saturatingDurationSince checkedAt < Duration.fromMillis 250)

variable {env : Env} {s s₁ : Router} {input : Input} {outputs : List Output} {d : Dispatch}

theorem costs_of_turn (h : Turn env s input outputs s₁ (some d)) : Costs env s input d := by
  cases h with
  | resumed index admission item home checkedAt ran waits ticket =>
    refine .resumed index admission item home checkedAt rfl ran waits ticket rfl rfl ?_
    by_cases hone : combinedMode env.gateMode item.initial = 1
    · exact .inl (by rw [decide_eq_true hone, Bool.true_or])
    by_cases htwo : combinedMode env.gateMode item.initial = 2
    · by_cases hseen : home = true ∧
          env.now.saturatingDurationSince checkedAt < Duration.fromMillis 250
      · exact .inr (.inr ⟨htwo, hseen⟩)
      · refine .inl ?_
        have hunseen : (home && decide
            (env.now.saturatingDurationSince checkedAt < Duration.fromMillis 250)) = false := by
          rwa [← Bool.not_eq_true, Bool.and_eq_true, decide_eq_true_eq]
        rw [hunseen, decide_eq_true htwo, Bool.not_false, Bool.true_and, Bool.or_true]
    · refine .inr (.inl ?_)
      unfold combinedMode at hone htwo ⊢
      split at hone
      next => exact absurd rfl hone
      next h =>
        rw [if_neg h] at htwo ⊢
        split at htwo
        next => exact absurd rfl htwo
        next h₂ => exact if_neg h₂
  | owned _ action changed outputs₀ s₀ outputs₁ _ _ taken owner change cleared owned =>
    have hmode := initialMode_of_cleared env cleared
    cases owned with
    | stale kind event item event_eq =>
      refine .direct taken hmode (.inl rfl) fun hstart => ?_
      rw [isStart_of_event event_eq] at hstart
      cases hstart
    | goesOn free =>
      refine .direct taken hmode ?_ fun hstart => ?_
      · by_cases hzero : env.initialMode action s₁ = 0
        · exact .inr hzero
        · exact .inl (decide_eq_true hzero)
      · have hneeds := needsAdmission_of_isStart hstart
        rw [← (cleared.eq_of_needs hneeds).2]
        exact free hneeds

theorem modes_of_turn
    {d : Option Dispatch} (hinv : Inv s) (h : Modes s) (turn : Turn env s input outputs s₁ d) :
    Modes s₁ := by
  obtain ⟨hinv₁, hshrinks, -⟩ := inv_turn hinv turn
  refine ⟨fun id start mode hstart hmode => ?_, fun id item start hitem hstart => ?_⟩
  all_goals
    obtain ⟨hmodes, hstarts⟩ := hshrinks.modes id (by
      rw [← hinv₁.keyed.startModes, hstart, Option.isSome_some])
    rw [hstarts] at hstart
  · exact h.stricter id start mode hstart (hmodes ▸ hmode)
  · rcases pending_of_turn turn hitem with hold | hnew
    · exact h.waits id item start hold hstart
    · -- the call has its mode, and under this mode the action has to wait
      have hwaits := hinv₁.pending id item hitem
      obtain ⟨gate, hguarded⟩ := hnew.guarded
      have hrouted := hinv.keyed.startModes id
      rw [hstart, Option.isSome_some, ← hinv.keyed.modes id] at hrouted
      obtain ⟨mode, hmode⟩ := Option.isSome_iff_exists.mp hrouted.symm
      have hrequested : requestedMode item.action s = mode := by
        cases haction : item.action with
        | request plan response =>
          have hnone := hwaits.new (by rw [haction]; rfl)
          have hkeyed := hinv₁.keyed.startModes id
          rw [hstarts, hstart, hnone] at hkeyed
          cases hkeyed
        | command command =>
          have hnamed := hwaits.named
          rw [haction] at hnamed
          rw [requestedMode, hnamed, hmode, Option.getD_some]
          exact fun _ _ h => by cases h
        | event kind event =>
          have hnamed := hwaits.named
          rw [haction] at hnamed
          rw [requestedMode, hnamed, hmode, Option.getD_some]
          exact fun _ _ h => by cases h
      rintro rfl
      rw [hrequested, (h.stricter id 1 mode hstart hmode).strict rfl] at hguarded
      exact absurd (combinedMode_eq_one.mpr (.inl rfl)) (by rw [hguarded]; decide)

/-- What the mode of an action is worth for a call that has its route. -/
theorem stricter_of_costs (hinv : Inv s) (h : Modes s) (turn : Turn env s input outputs s₁ (some d))
    {start : ℕ} (hstart : s.startModes.lookup d.action.callId = some start)
    (hother : d.action.isStart = false) : Stricter d.mode start := by
  have hrouted := hinv.keyed.startModes d.action.callId
  rw [hstart, Option.isSome_some, ← hinv.keyed.modes] at hrouted
  obtain ⟨mode, hmode⟩ := Option.isSome_iff_exists.mp hrouted.symm
  have hstricter := h.stricter _ start mode hstart hmode
  cases costs_of_turn turn with
  | direct action_eq mode_eq guard free =>
    have hrequested : requestedMode d.action s = mode := by
      cases haction : d.action with
      | request plan response =>
        rw [haction] at hother
        cases hother
      | command command =>
        rw [haction] at hmode
        rw [requestedMode, hmode, Option.getD_some]
        exact fun _ _ h => by cases h
      | event kind event =>
        rw [haction] at hmode
        rw [requestedMode, hmode, Option.getD_some]
        exact fun _ _ h => by cases h
    rw [mode_eq, hrequested]
    exact (stricter_combinedMode _ _).trans hstricter
  | resumed index admission item home checkedAt input_eq ran waits ticket action_eq mode_eq guard =>
    have hitem := hinv.pending _ item waits
    have hnamed : admission.callId = d.action.callId := by rw [action_eq, hitem.named]
    rw [hnamed] at waits
    rw [mode_eq, hitem.initial]
    exact ⟨fun hone => absurd hone (h.waits _ item start waits hstart),
      (stricter_combinedMode _ _).guarded ∘ fun _ => rfl⟩

theorem modes_step (hinv : Inv s) (h : Modes s) (x : Env × Input) : Modes (s.step x).2 := by
  have hstepped := step_stepped hinv x
  generalize s.step x = stepped at hstepped
  obtain ⟨outputs', s'⟩ := stepped
  cases hstepped with
  | rested outputs s₁ turn =>
    have h₁ := modes_of_turn hinv h turn
    exact ⟨h₁.stricter, h₁.waits⟩
  | went outputs s₁ d more s₂ turn inv ready dispatched =>
    have h₁ := modes_of_turn hinv h turn
    have hleaves := dispatched.effect.leaves fun route hroute => inv.routes _ route hroute
    -- the mode of the start is kept, or the action makes the route and gives its own mode
    have hstart₂ : ∀ start, s₂.startModes.lookup d.action.callId = some start →
        (s₁.startModes.lookup d.action.callId = some start ∧
          (s₁.routes.lookup d.action.callId).isSome = true) ∨
        start = d.mode ∧ d.action.needsAdmission = true := by
      intro start hstart
      rw [dispatched.settled.startModes, if_pos rfl] at hstart
      obtain ⟨route', hroute', hstart⟩ := Option.bind_eq_some_iff.mp hstart
      split at hstart
      next hrouted => exact .inl ⟨hstart, hrouted⟩
      next hrouted =>
        refine .inr ⟨(Option.some.inj hstart).symm, ?_⟩
        rcases hleaves.recorded route' hroute' with ⟨route, hroute, -⟩ | ⟨hneeds, -⟩
        · rw [hroute, Option.isSome_some] at hrouted
          exact absurd rfl hrouted
        · exact hneeds
    refine ⟨fun id start mode hstart hmode => ?_, fun id item start hitem hstart => ?_⟩
    · change s₂.startModes.lookup id = some start at hstart
      by_cases hid : id = d.action.callId
      · subst hid
        rw [dispatched.settled.modes, if_pos rfl] at hmode
        obtain ⟨_, -, rfl⟩ := Option.map_eq_some_iff.mp hmode
        rcases hstart₂ start hstart with ⟨hstart₁, hrouted⟩ | ⟨rfl, -⟩
        · have hsame := ((inv_turn hinv turn).2.1.modes _ hrouted).2
          refine stricter_of_costs hinv h turn (hsame ▸ hstart₁) (Bool.eq_false_iff.mpr ?_)
          intro hnew
          rw [ready.new hnew] at hrouted
          cases hrouted
        · exact .refl _
      · rw [dispatched.settled.modes, if_neg hid] at hmode
        rw [dispatched.settled.startModes, if_neg hid] at hstart
        exact h₁.stricter id start mode hstart hmode
    · change s₂.startModes.lookup id = some start at hstart
      have hitem₁ : s₁.pending.lookup id = some item := dispatched.settled.pending ▸ hitem
      by_cases hid : id = d.action.callId
      · subst hid
        rcases hstart₂ start hstart with ⟨hstart₁, -⟩ | ⟨-, hneeds⟩
        · exact h₁.waits _ item start hitem₁ hstart₁
        · rw [ready.free hneeds] at hitem₁
          cases hitem₁
      · rw [dispatched.settled.startModes, if_neg hid] at hstart
        exact h₁.waits id item start hitem₁ hstart

theorem modes_after (run : List (Env × Input)) : Modes (Router.after run) := by
  induction run using reverseRecOn with
  | nil => exact ⟨fun _ _ _ h => (by cases h), fun _ _ _ h => by cases h⟩
  | append_singleton run x ih =>
    rw [after_concat]
    exact modes_step (inv_after run) ih x

/-! ## Observations -/

/-- The number of the observations that these turns start. -/
def observations : Router → List (Env × Input) → ℕ
  | _, [] => 0
  | s, x :: run =>
    (if (s.step x).2.revision = s.revision then 0 else 1) + observations (s.step x).2 run

theorem observations_concat (s : Router) (run : List (Env × Input)) (x : Env × Input) :
    observations s (run ++ [x]) = observations s run +
      if ((Machine.run Router.step s run).step x).2.revision =
        (Machine.run Router.step s run).revision then 0 else 1 := by
  induction run generalizing s with
  | nil => exact Nat.add_comm _ _
  | cons y run ih =>
    rw [cons_append, observations, ih, observations, Machine.run_cons, Nat.add_assoc]

/-- The ticket is that of one of the observations so far, which was started at this step. -/
def Numbered (total : ℕ) (startedAt : ℕ → ℕ) (ticket at_ : ℕ) : Prop :=
  ∃ n, 0 < n ∧ n ≤ total ∧ ticket = n % 2 ^ 64 ∧ at_ = startedAt n

/-- The tickets are the numbers of the observations, as far as 64 bits hold them. -/
structure Tickets (total : ℕ) (startedAt : ℕ → ℕ) (s : Router) : Prop where
  revision : s.revision = total % 2 ^ 64
  admissions : ∀ a ∈ s.admissions, Numbered total startedAt a.ticket a.startedAt
  pending : ∀ id item, s.pending.lookup id = some item →
    Numbered total startedAt item.ticket item.receivedAt

/-- A turn starts one observation, or none. -/
inductive Spawns (s s' : Router) : Prop where
  | none (revision : s'.revision = s.revision) (admissions : ∀ a ∈ s'.admissions, a ∈ s.admissions)
      (pending : ∀ id item, s'.pending.lookup id = some item → s.pending.lookup id = some item) :
    Spawns s s'
  | one (revision : s'.revision = (s.revision + 1) % 2 ^ 64)
      (admissions : ∀ a ∈ s'.admissions,
        a ∈ s.admissions ∨ a.ticket = s'.revision ∧ a.startedAt = s.steps)
      (pending : ∀ id item, s'.pending.lookup id = some item →
        s.pending.lookup id = some item ∨
          item.ticket = s'.revision ∧ item.receivedAt = s.steps) :
    Spawns s s'

variable {action : CostCheckedAction}

theorem spawns_of_cleared (h : Cleared action s outputs s₁) :
    s₁.revision = s.revision ∧ s₁.admissions = s.admissions ∧ s₁.steps = s.steps := by
  cases h with
  | kept => exact ⟨rfl, rfl, rfl⟩
  | free => exact ⟨rfl, rfl, rfl⟩
  | cancelled => exact ⟨rfl, rfl, rfl⟩

theorem spawns_of_turn {d : Option Dispatch} (h : Turn env s input outputs s₁ d) : Spawns s s₁ := by
  cases h with
  | idle | closed | evidence | foreign => exact .none rfl (fun _ h => h) fun _ _ h => h
  | lagged =>
    have hrejected := env.rejectPending_rejected s
    refine .none hrejected.revision (fun a h => hrejected.admissions ▸ h) fun id item h => ?_
    rw [hrejected.pending] at h
    cases h
  | unmatched index =>
    exact .none rfl (fun _ h => mem_of_mem_eraseIdx h) fun _ _ h => h
  | resumed =>
    exact .none rfl (fun _ h => mem_of_mem_eraseIdx h) fun _ _ h => lookup_of_erase h
  | owned _ action changed outputs₀ s₀ outputs₁ _ _ taken owner change cleared owned =>
    obtain ⟨hrevision, hadmissions, hsteps⟩ := spawns_of_cleared cleared
    have hpending : ∀ id item, s₀.pending.lookup id = some item →
        s.pending.lookup id = some item := fun _ _ h => pending_of_cleared cleared h
    cases owned with
    | repeated | goesOn => exact .none hrevision (fun _ h => hadmissions ▸ h) hpending
    | stale =>
      exact .none hrevision (fun _ h => hadmissions ▸ h) fun id item h =>
        hpending id item (lookup_of_erase h)
    | full =>
      have hrejected := env.rejectCostChecked_rejected action s₀
      exact .none (hrejected.revision.trans hrevision)
        (fun a h => hadmissions ▸ hrejected.admissions ▸ h)
        fun id item h => hpending id item (hrejected.pending ▸ h)
    | waits =>
      refine .one (by rw [← hrevision]; rfl) (fun a h => ?_) fun id item h => ?_
      · rcases mem_append.mp h with hold | hnew
        · exact .inl (hadmissions ▸ hold)
        · rw [mem_singleton.mp hnew]
          exact .inr ⟨rfl, hsteps⟩
      · by_cases hid : id = action.callId
        · subst hid
          have hinserted : (spawnAdmission action 2 s₀).pending.lookup action.callId = some _ :=
            AList.lookup_insert ..
          obtain rfl := Option.some.inj (hinserted.symm.trans h)
          exact .inr ⟨rfl, hsteps⟩
        · have hkept : (spawnAdmission action 2 s₀).pending.lookup id = s₀.pending.lookup id :=
            AList.lookup_insert_ne hid
          exact .inl (hpending id item (hkept ▸ h))

theorem Spawns.congr {s₂ : Router} (h : Spawns s s₁) (hrevision : s₂.revision = s₁.revision)
    (hadmissions : s₂.admissions = s₁.admissions) (hpending : s₂.pending = s₁.pending) :
    Spawns s s₂ := by
  cases h with
  | none revision admissions pending =>
    exact .none (hrevision.trans revision) (hadmissions ▸ admissions) (hpending ▸ pending)
  | one revision admissions pending =>
    refine .one (hrevision.trans revision) ?_ ?_
    · rw [hadmissions, hrevision]
      exact admissions
    · rw [hpending, hrevision]
      exact pending

theorem spawns_step (h : Inv s) (x : Env × Input) : Spawns s (s.step x).2 := by
  have hstepped := step_stepped h x
  generalize s.step x = stepped at hstepped
  obtain ⟨outputs', s'⟩ := stepped
  cases hstepped with
  | rested outputs s₁ turn => exact (spawns_of_turn turn).congr rfl rfl rfl
  | went outputs s₁ d more s₂ turn inv ready dispatched =>
    have hsettled := dispatched.settled
    exact (spawns_of_turn turn).congr hsettled.revision hsettled.admissions hsettled.pending

theorem Numbered.mono {total total' : ℕ} {startedAt startedAt' : ℕ → ℕ} {ticket at_ : ℕ}
    (h : Numbered total startedAt ticket at_) (hle : total ≤ total')
    (hsame : ∀ n ≤ total, startedAt' n = startedAt n) : Numbered total' startedAt' ticket at_ := by
  obtain ⟨n, hpos, hn, hticket, hat⟩ := h
  exact ⟨n, hpos, hn.trans hle, hticket, hat.trans (hsame n hn).symm⟩

theorem tickets_after (run : List (Env × Input)) :
    ∃ startedAt, Tickets (observations {} run) startedAt (Router.after run) := by
  induction run using reverseRecOn with
  | nil => exact ⟨id, rfl, fun _ h => (by cases h), fun _ _ h => by cases h⟩
  | append_singleton run x ih =>
    obtain ⟨startedAt, hrevision, hadmissions, hpending⟩ := ih
    have hspawns := spawns_step (inv_after run) x
    rw [observations_concat, ← Router.after, after_concat]
    cases hspawns with
    | none revision admissions pending =>
      rw [if_pos revision, Nat.add_zero]
      exact ⟨startedAt, revision.trans hrevision, fun a h => hadmissions a (admissions a h),
        fun id item h => hpending id item (pending id item h)⟩
    | one revision admissions pending =>
      have hnew : ((Router.after run).step x).2.revision =
          (observations {} run + 1) % 2 ^ 64 := by
        rw [revision, hrevision, Nat.mod_add_mod]
      have hchanged : ((Router.after run).step x).2.revision ≠ (Router.after run).revision := by
        omega
      rw [if_neg hchanged]
      -- the new observation has the next number
      refine ⟨Function.update startedAt (observations {} run + 1) (Router.after run).steps, hnew,
        fun a ha => ?_, fun id item hitem => ?_⟩
      all_goals
        have hold : ∀ {ticket at_ : ℕ}, Numbered (observations {} run) startedAt ticket at_ →
            Numbered (observations {} run + 1) (Function.update startedAt
              (observations {} run + 1) (Router.after run).steps) ticket at_ := fun h =>
          h.mono (Nat.le_succ _) fun n hn => Function.update_of_ne (by omega) _ _
      · rcases admissions a ha with hin | ⟨hticket, hat⟩
        · exact hold (hadmissions a hin)
        · exact ⟨observations {} run + 1, Nat.succ_pos _, le_rfl, hticket.trans hnew, by
            rw [Function.update_self, hat]⟩
      · rcases pending id item hitem with hin | ⟨hticket, hat⟩
        · exact hold (hpending id item hin)
        · exact ⟨observations {} run + 1, Nat.succ_pos _, le_rfl, hticket.trans hnew, by
            rw [Function.update_self, hat]⟩

variable {run : List (Env × Input)}

/-- As long as the tickets have not come round, the observation with the ticket of an action was
started when the action was taken in. -/
theorem startedAt_of_ticket (hbound : observations {} run ≤ 2 ^ 64)
    {admission : Admission} (hran : admission ∈ (Router.after run).admissions) {id : Str}
    {item : PendingAdmission} (hwaits : (Router.after run).pending.lookup id = some item)
    (hticket : item.ticket = admission.ticket) : admission.startedAt = item.receivedAt := by
  obtain ⟨startedAt, -, hadmissions, hpending⟩ := tickets_after run
  obtain ⟨n, hpos, hn, hticket₁, hat₁⟩ := hadmissions admission hran
  obtain ⟨m, hpos', hm, hticket₂, hat₂⟩ := hpending id item hwaits
  have hsame : n = m := by
    omega
  rw [hat₁, hat₂, hsame]

/-! ## The guard -/

/-- The mode that an action names for its call. -/
def namedMode : CostCheckedAction → ℕ
  | .request plan _ => plan.initialCostMode
  | .command _ | .event .. => 0

/-- The mode of a call: that of its start, or that with which its start was taken in. -/
def fixedMode (s : Router) (callId : Str) (action : CostCheckedAction) : ℕ :=
  ((s.startModes.lookup callId).or ((s.pending.lookup callId).map (·.initial))).getD
    (namedMode action)

/-- The command serves a start, an acceptance or the loss of the call by a leg. -/
inductive Serves (action : CostCheckedAction) (command : OperatorCommand) : Prop where
  | start (start : action.isStart = true) (callId : action.callId = command.callId)
  | accept (action_eq : action = .command command)
  | failover (kind event) (action_eq : action = .event kind event)
      (unavailable : event.isUnavailable = true) (callId : action.callId = command.callId)

/-- The home network was seen for the action: the observation was started in the step in which the
action was taken in, which has waited since, and its end is not long ago. -/
def Observed (run : List (Env × Input)) (x : Env × Input) (action : CostCheckedAction) : Prop :=
  ∃ index checkedAt admission item,
    x.2 = .joined index (some (true, checkedAt)) ∧
    (Router.after run).admissions[index]? = some admission ∧
    admission.callId = action.callId ∧ item.action = action ∧
    Received run action.callId item ∧ admission.startedAt = item.receivedAt ∧
    x.1.now.saturatingDurationSince checkedAt < Duration.fromMillis 250

/-- A start or an acceptance for another leg than VoWiFi needs an action that is not guarded. -/
theorem Sends.unguarded {onlyWifi : Bool} {before after : Option CallRoute} {kind : AccessPathKind}
    {command : OperatorCommand} (h : Sends env onlyWifi action before outputs after kind command)
    (hkind : kind ≠ .vowifi) (hguarded : command.isStart = true ∨ command.isAccept = true)
    (hroutes : ∀ route, before = some route → RouteOk action.callId route) :
    onlyWifi = false ∧ Serves action command := by
  cases h with
  | first leg start live command eligible =>
    refine ⟨?_, .start start command.1.symm⟩
    unfold startEligible at eligible
    rwa [beq_eq_false_iff_ne.mpr hkind, Bool.or_false, Bool.not_eq_true'] at eligible
  | next event route leg remaining action_eq unavailable before_eq live sub among owner =>
    have hnamed := ((hroutes route before_eq).of_among sub among).2.2.1
    refine ⟨?_, .failover _ event action_eq unavailable hnamed.symm⟩
    have heligible := among.eligible
    unfold failoverEligible routePlanForTrunk at heligible
    cases onlyWifi with
    | false => rfl
    | true =>
      rw [if_pos rfl, contains_iff_mem, mem_filter] at heligible
      exact absurd (beq_iff_eq.mp heligible.2) hkind
  | withdrawn => rcases hguarded with h | h <;> cases h
  | owner command route action_eq start before_eq current accepts =>
    have haccept := hguarded.resolve_left (by rw [start]; decide)
    refine ⟨Bool.eq_false_iff.mpr fun honly => ?_, .accept action_eq⟩
    rw [accepts honly hkind] at haccept
    cases haccept

/-- An action that goes on unguarded is free under the mode of its call, or the home network was
seen for it. -/
theorem free_or_observed (hbound : observations {} run ≤ 2 ^ 64) {x : Env × Input} {s' : Router}
    {more : List Output} (hwent : Went (Router.after run) x outputs s₁ d more s')
    (hunguarded : d.onlyWifi = false)
    (hrouted : d.action.isStart = true ∨
      ((Router.after run).startModes.lookup d.action.callId).isSome = true) :
    combinedMode x.1.gateMode (fixedMode (Router.after run) d.action.callId d.action) ≠ 1 ∧
      (combinedMode x.1.gateMode (fixedMode (Router.after run) d.action.callId d.action) = 0 ∨
        Observed run x d.action) := by
  have hinv := inv_after run
  have hmodes := modes_after run
  have hnew : d.action.isStart = true →
      (Router.after run).startModes.lookup d.action.callId = none := by
    intro hstart
    have hkeyed := hinv.keyed.startModes d.action.callId
    rw [hwent.before_none (hwent.ready.new hstart), Option.isSome_none,
      Option.isSome_eq_false_iff, Option.isNone_iff_eq_none] at hkeyed
    exact hkeyed
  have hother : ∀ start, (Router.after run).startModes.lookup d.action.callId = some start →
      d.action.isStart = false := by
    intro start hstart
    rw [← Bool.not_eq_true]
    intro h
    rw [hnew h] at hstart
    cases hstart
  cases costs_of_turn hwent.turn with
  | direct action_eq mode_eq guard free =>
    have hzero := guard.resolve_left (by rw [hunguarded]; decide)
    suffices h : combinedMode x.1.gateMode
        (fixedMode (Router.after run) d.action.callId d.action) = 0 by
      exact ⟨by rw [h]; decide, .inl h⟩
    cases hstart : (Router.after run).startModes.lookup d.action.callId with
    | some start =>
      have hstricter := stricter_of_costs hinv hmodes hwent.turn hstart (hother start hstart)
      rw [fixedMode, hstart, Option.some_or, Option.getD_some]
      refine combinedMode_eq_zero.mpr ⟨⟨fun hone => ?_, fun htwo => ?_⟩,
        (combinedMode_eq_zero.mp (mode_eq.symm.trans hzero)).2⟩
      · rw [hstricter.strict hone] at hzero
        cases hzero
      · rcases hstricter.guarded htwo with h | h <;> rw [h] at hzero <;> cases hzero
    | none =>
      have hstarts : d.action.isStart = true := hrouted.resolve_right (by rw [hstart]; decide)
      have hmode : (Router.after run).modes.lookup d.action.callId = none := by
        have hkeyed := hinv.keyed.modes d.action.callId
        rw [← hinv.keyed.startModes, hstart, Option.isSome_none, Option.isSome_eq_false_iff,
          Option.isNone_iff_eq_none] at hkeyed
        exact hkeyed
      rw [fixedMode, hstart, free hstarts, Option.map_none, Option.none_or, Option.getD_none]
      rw [hzero] at mode_eq
      cases haction : d.action with
      | request plan response =>
        rw [haction] at mode_eq
        exact mode_eq.symm
      | command command =>
        rw [haction] at mode_eq hmode
        rw [requestedMode, hmode] at mode_eq
        · exact mode_eq.symm
        · exact fun _ _ h => by cases h
      | event kind event =>
        rw [haction] at hstarts
        cases hstarts
  | resumed index admission item home checkedAt input_eq ran waits ticket action_eq mode_eq guard =>
    have hitem := hinv.pending _ item waits
    have hnamed : admission.callId = d.action.callId := by rw [action_eq, hitem.named]
    rw [hitem.initial] at mode_eq
    obtain ⟨htwo, rfl, hfresh⟩ : d.mode = 2 ∧ home = true ∧
        x.1.now.saturatingDurationSince checkedAt < Duration.fromMillis 250 := by
      rcases guard with h | h | h
      · rw [hunguarded] at h
        cases h
      · rw [h] at mode_eq
        exact absurd rfl (combinedMode_eq_zero.mp mode_eq.symm).1.2
      · exact h
    have hgate : x.1.gateMode ≠ 1 := by
      intro hone
      rw [combinedMode_eq_one.mpr (.inr hone), htwo] at mode_eq
      cases mode_eq
    refine ⟨fun hone => ?_, .inr ⟨index, checkedAt, admission, item, input_eq, ran, hnamed,
      action_eq.symm, received_after run _ item (hnamed ▸ waits),
      startedAt_of_ticket hbound (mem_of_getElem? ran) waits ticket, hfresh⟩⟩
    have hfixed := (combinedMode_eq_one.mp hone).resolve_right hgate
    rw [hnamed] at waits
    cases hstart : (Router.after run).startModes.lookup d.action.callId with
    | some start =>
      rw [fixedMode, hstart, Option.some_or, Option.getD_some] at hfixed
      exact hmodes.waits _ item start waits hstart hfixed
    | none =>
      rw [fixedMode, hstart, waits, Option.none_or, Option.map_some, Option.getD_some,
        hitem.initial] at hfixed
      cases hfixed

/-- **The cost policy is not bypassed.** In every run of fewer observations than there are tickets,
a start or an acceptance that goes to another leg than VoWiFi serves an action whose call has no
strict mode, and either no guarded one, or the home network has been seen for the action. -/
theorem cost_policy (run : List (Env × Input)) (x : Env × Input)
    (hbound : observations {} run ≤ 2 ^ 64) (kind : AccessPathKind) (command : OperatorCommand)
    (hsent : .sent kind command ∈ Router.outputs run x) (hkind : kind ≠ .vowifi)
    (hguarded : command.isStart = true ∨ command.isAccept = true) :
    ∃ action, Acts (Router.after run) x.2 action ∧ Serves action command ∧
      combinedMode x.1.gateMode (fixedMode (Router.after run) command.callId action) ≠ 1 ∧
      (combinedMode x.1.gateMode (fixedMode (Router.after run) command.callId action) = 0 ∨
        Observed run x action) := by
  have hinv := inv_after run
  obtain ⟨outputs, s₁, d, more, s', hwent, hmore⟩ := went_of_passes hinv hsent trivial
  have hsends := hwent.dispatched.effect.sends hmore
  obtain ⟨hunguarded, hserves⟩ := hsends.unguarded hkind hguarded
    fun route hroute => hwent.inv.routes _ route hroute
  have hnamed : d.action.callId = command.callId := by
    cases hserves with
    | start _ h => exact h
    | accept h => rw [h]; rfl
    | failover _ _ _ _ h => exact h
  refine ⟨d.action, hwent.acts hinv, hserves, ?_⟩
  rw [← hnamed]
  refine free_or_observed hbound hwent hunguarded ?_
  by_cases hstart : d.action.isStart = true
  · exact .inl hstart
  · refine .inr ?_
    have hrouted : ∃ route, s₁.routes.lookup d.action.callId = some route := by
      cases hsends with
      | first leg start => exact absurd start hstart
      | next event route leg remaining action_eq unavailable before_eq => exact ⟨route, before_eq⟩
      | withdrawn plan response leg action_eq => exact absurd (by rw [action_eq]; rfl) hstart
      | owner _ route action_eq start before_eq => exact ⟨route, before_eq⟩
    obtain ⟨route, hroute⟩ := hrouted
    obtain ⟨route₀, hroute₀, -⟩ := hwent.before hinv hroute
    rw [hinv.keyed.startModes, hroute₀, Option.isSome_some]

/-- Only cellular IMS is registered, and the home network has to be seen. -/
def homeLeg : Env where
  now := 0
  policy := ⟨[], true⟩
  backends := [⟨.cellularIms, ⟨true, 1, 3, false⟩⟩]
  gateMode := 2

/-- A start that has waited for its observation goes out over cellular IMS. -/
theorem cost_policy_observed : ∃ action, Acts (Router.after [(homeLeg, .command trunkStart)])
        (.joined 0 (some (true, 0))) action ∧ Serves action trunkStart ∧
      combinedMode 2 (fixedMode (Router.after [(homeLeg, .command trunkStart)]) "7".toList
        action) ≠ 1 ∧
      (combinedMode 2 (fixedMode (Router.after [(homeLeg, .command trunkStart)]) "7".toList
        action) = 0 ∨
        Observed [(homeLeg, .command trunkStart)] (homeLeg, .joined 0 (some (true, 0))) action) :=
  cost_policy [(homeLeg, .command trunkStart)] (homeLeg, .joined 0 (some (true, 0)))
    (by decide +kernel) .cellularIms trunkStart (by decide +kernel) (by decide) (.inl rfl)

/-! ## The tickets come round -/

/-- A call is started and taken back while it waits. -/
def startedAndCancelled : List (Env × Input) :=
  [(homeLeg, .command trunkStart), (homeLeg, .command (.cancelCall "7".toList))]

/-- The router with these observations and no call. -/
def emptyRouter (admissions : List Admission) (revision steps : ℕ) : Router :=
  { admissions, revision, steps }

/-- The router while the start waits. -/
def waitingRouter (admissions : List Admission) (revision steps : ℕ) : Router :=
  { spawnAdmission (.command trunkStart) 2 (emptyRouter admissions revision steps) with
    steps := steps + 1 }

variable (admissions : List Admission)

theorem step_start (revision steps : ℕ) :
    (emptyRouter admissions revision steps).step (homeLeg, .command trunkStart) =
      ([], waitingRouter admissions revision steps) := by
  unfold Router.step
  rfl

theorem step_cancel (revision steps : ℕ) : ((waitingRouter admissions revision steps).step
      (homeLeg, .command (.cancelCall "7".toList))).2 =
      emptyRouter (admissions ++ [⟨"7".toList, (revision + 1) % 2 ^ 64, steps⟩])
        ((revision + 1) % 2 ^ 64) (steps + 2) := by
  unfold Router.step
  rfl

theorem run_cycles (count : ℕ) (admissions : List Admission) (revision steps : ℕ) :
    ∃ more, Machine.run Router.step (emptyRouter admissions (revision % 2 ^ 64) steps)
        (replicate count startedAndCancelled).flatten =
      emptyRouter (admissions ++ more) ((revision + count) % 2 ^ 64) (steps + 2 * count) := by
  induction count generalizing admissions revision steps with
  | zero => exact ⟨[], by rw [append_nil]; rfl⟩
  | succ count ih =>
    have hcycle : Machine.run Router.step (emptyRouter admissions (revision % 2 ^ 64) steps)
        startedAndCancelled =
        emptyRouter (admissions ++ [⟨"7".toList, (revision % 2 ^ 64 + 1) % 2 ^ 64, steps⟩])
          ((revision + 1) % 2 ^ 64) (steps + 2) := by
      rw [startedAndCancelled, Machine.run_cons, Machine.run_cons, Machine.run_nil, step_start,
        step_cancel, Nat.mod_add_mod]
    obtain ⟨more, hmore⟩ := ih
      (admissions ++ [⟨"7".toList, (revision % 2 ^ 64 + 1) % 2 ^ 64, steps⟩])
      (revision + 1) (steps + 2)
    refine ⟨⟨"7".toList, (revision % 2 ^ 64 + 1) % 2 ^ 64, steps⟩ :: more, ?_⟩
    rw [replicate_succ, flatten_cons, Machine.run_append, hcycle, hmore,
      append_assoc, Nat.add_assoc revision, Nat.add_comm 1 count, Nat.mul_add, Nat.add_assoc,
      Nat.add_comm 2]
    rfl

/-- As many starts as there are tickets, all taken back, and one more. -/
def ticketsAround : List (Env × Input) :=
  (replicate (2 ^ 64) startedAndCancelled).flatten ++ [(homeLeg, Input.command trunkStart)]

theorem after_ticketsAround : ∃ more steps, 0 < steps ∧
    Router.after ticketsAround = waitingRouter (⟨"7".toList, 1, 0⟩ :: more) 0 steps := by
  have hfirst : ∃ more, Machine.run Router.step {}
      (replicate (2 ^ 64) startedAndCancelled).flatten =
      emptyRouter (⟨"7".toList, 1, 0⟩ :: more) 0 (2 * 2 ^ 64) := by
    obtain ⟨more, hmore⟩ := run_cycles (2 ^ 64 - 1) [⟨"7".toList, 1, 0⟩] 1 2
    refine ⟨more, ?_⟩
    have hstart : Machine.run Router.step {} startedAndCancelled =
        emptyRouter [⟨"7".toList, 1, 0⟩] (1 % 2 ^ 64) 2 := by
      have hempty : ({} : Router) = emptyRouter [] 0 0 := rfl
      rw [hempty, startedAndCancelled, Machine.run_cons, Machine.run_cons, Machine.run_nil,
        step_start, step_cancel]
      rfl
    have hcount : 2 ^ 64 = (2 ^ 64 - 1) + 1 := by decide +kernel
    rw [hcount, replicate_succ, flatten_cons, Machine.run_append, hstart, hmore]
    rfl
  obtain ⟨more, hmore⟩ := hfirst
  refine ⟨more, 2 * 2 ^ 64, by decide +kernel, ?_⟩
  rw [Router.after, ticketsAround, Machine.run_append, hmore, Machine.run_cons, Machine.run_nil,
    step_start]

theorem pending_waitingRouter (revision steps : ℕ) :
    (waitingRouter admissions revision steps).pending.lookup "7".toList =
      some ⟨(revision + 1) % 2 ^ 64, 2, none, .command trunkStart, steps⟩ :=
  AList.lookup_insert ..

/-- An observation that comes to its end when its ticket has come round lets another start go. -/
theorem outputs_ticketsAround : .sent .cellularIms trunkStart ∈
      Router.outputs ticketsAround (homeLeg, .joined 0 (some (true, 0))) := by
  obtain ⟨more, steps, hpos, hafter⟩ := after_ticketsAround
  have hreceive : (homeLeg.receive (.joined 0 (some (true, 0)))
      (waitingRouter (⟨"7".toList, 1, 0⟩ :: more) 0 steps)).2.2 =
      some ⟨.command trunkStart, 2, false⟩ := rfl
  have hsent : .sent .cellularIms trunkStart ∈
      (homeLeg.routeCommand trunkStart false ∅).1 := by decide +kernel
  rw [Router.outputs, hafter, Router.step]
  dsimp only
  rw [hreceive]
  refine mem_append_right _ ?_
  unfold dispatchCostChecked
  exact hsent

theorem ticket_comes_round :
    ¬∀ run x kind command, .sent kind command ∈ Router.outputs run x → kind ≠ .vowifi →
      (command.isStart = true ∨ command.isAccept = true) →
      ∃ action, Acts (Router.after run) x.2 action ∧ Serves action command ∧
        combinedMode x.1.gateMode (fixedMode (Router.after run) command.callId action) ≠ 1 ∧
        (combinedMode x.1.gateMode (fixedMode (Router.after run) command.callId action) = 0 ∨
          Observed run x action) := by
  intro h
  obtain ⟨action, -, -, -, hfree⟩ := h ticketsAround _ _ _ outputs_ticketsAround (by decide)
    (.inl rfl)
  rcases hfree with hzero |
    ⟨index, checkedAt, admission, item, hinput, hran, -, -, hreceived, hat, -⟩
  · exact (combinedMode_eq_zero.mp hzero).2.2 rfl
  obtain ⟨more, steps, hpos, hafter⟩ := after_ticketsAround
  obtain ⟨earlier, y, later, hrun, -, -, hwaits⟩ := hreceived
  have hitem := hwaits later [] (append_nil _).symm
  rw [← hrun, hafter] at hitem
  rw [hafter] at hran
  dsimp only at hinput
  rw [Input.joined.injEq] at hinput
  rw [← hinput.1] at hran
  have hadmission : (⟨"7".toList, 1, 0⟩ : Admission) = admission := Option.some.inj hran
  have hreceivedAt : item.receivedAt = steps := by
    by_cases hid : action.callId = "7".toList
    · rw [hid, pending_waitingRouter] at hitem
      rw [← Option.some.inj hitem]
    · have hnone : (waitingRouter (⟨"7".toList, 1, 0⟩ :: more) 0 steps).pending.lookup
          action.callId = none := AList.lookup_insert_ne hid
      rw [hnone] at hitem
      cases hitem
  rw [← hadmission, hreceivedAt] at hat
  exact absurd hat hpos.ne

end Env

end SimMaster.Trunk
