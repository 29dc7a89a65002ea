import SimMaster.AccessEffects

/-!
# The turns of the voice access router

What a turn takes in is turned away, put off, or goes on as an action. The cases are listed once,
and with them what holds of the maps of the router after every turn.
-/

namespace SimMaster.Trunk

open Rust List Option Bool

/-- The action that is taken in. -/
def Input.action : Input → Option CostCheckedAction
  | .command c => some (.command c)
  | .startCall plan response => some (.request plan response)
  | .event kind e => some (.event kind e)
  | .commandsLagged | .callAccess .. | .joined .. | .tick => none

/-- A message to the trunk or the API that does not say that a call ends. -/
def Output.Idle : Output → Prop
  | .responded .. | .dropped _ | .located .. => True
  | .reported event => event.isTerminal = false
  | .sent .. | .refused .. | .forwarded .. => False

/-- The leg offers an incoming call. -/
def CostCheckedAction.Offers (action : CostCheckedAction) (kind : AccessPathKind) : Prop :=
  ∃ event, action = .event kind event ∧ event.isIncoming = true

/-- An incoming call that is not taken is refused to the leg that offers it; one whose acceptance
fails, to the owner. -/
def CostCheckedAction.Refuses (action : CostCheckedAction) (routes : Routes)
    (kind : AccessPathKind) : Prop :=
  action.Offers kind ∨
    ∃ command route, action = .command command ∧ command.isAccept = true ∧
      routes.lookup command.callId = some route ∧ route.owner = kind

/-- A rejection that takes a route away is not one of an incoming call. -/
def CostCheckedAction.Ends (action : CostCheckedAction) : Prop :=
  ∀ kind event, action = .event kind event → event.isIncoming = false

/-- The one who asked for the start learns that it has failed. -/
def CostCheckedAction.Fails (outputs : List Output) : CostCheckedAction → Prop
  | .request _ response =>
    .dropped response ∈ outputs ∨ ∃ error, .responded response (.error error) ∈ outputs
  | .command c => .reported (.unavailable c.callId) ∈ outputs
  | .event .. => False

/-- A failure that is told stays told when more is said. -/
theorem CostCheckedAction.Fails.mono {outputs outputs' : List Output} (hsub : outputs ⊆ outputs')
    {action : CostCheckedAction} (h : action.Fails outputs) : action.Fails outputs' := by
  cases action with
  | request plan response => exact h.imp (hsub ·) fun ⟨error, h⟩ => ⟨error, hsub h⟩
  | command command => exact hsub h
  | event kind event => exact h

namespace Env

/-! ## An action that is taken in -/

/-- The mode with which an action is taken in. -/
def initialMode (env : Env) (action : CostCheckedAction) (s : Router) : ℕ :=
  combinedMode env.gateMode (requestedMode action s)

/-- The router when the pending action of a call has gone. -/
def withoutPending (callId : Str) (s : Router) : Router :=
  { s with pending := s.pending.erase callId }

/-- The router when a call has no candidates left. -/
def withoutRemaining (callId : Str) (s : Router) : Router :=
  { s with routes :=
    match s.routes.lookup callId with
    | some route => s.routes.insert callId { route with remaining := [] }
    | none => s.routes }

/-- What becomes of an action that no foreign leg has sent. -/
inductive Owned (env : Env) (action : CostCheckedAction) (s : Router) :
    List Output → Router → Option Dispatch → Prop where
  /-- The call is there already, or one of its actions waits. -/
  | repeated (outputs)
      (busy : ((s.pending.lookup action.callId).isSome = true ∧ action.needsAdmission = true ∧
          action.isUnavailable = false) ∨
        (s.routes.lookup action.callId).isSome = true ∧ action.isStart = true)
      (idle : ∀ output ∈ outputs, output.Idle)
      (answer : ∀ plan response, action = .request plan response →
        .responded response (.error .callAlreadyExists) ∈ outputs) :
    Owned env action s outputs s none
  /-- The leg has lost a call that waits. -/
  | stale (kind event item) (event_eq : action = .event kind event)
      (unavailable : event.isUnavailable = true)
      (waits : s.pending.lookup action.callId = some item) :
    Owned env action s item.action.drop
      (withoutRemaining action.callId (withoutPending action.callId s))
      (some ⟨action, env.initialMode action s, true⟩)
  | full (guarded : env.initialMode action s = 2)
      (observed : env.needsHomeObservation action s.routes = true) (many : 16 ≤ s.pending.len)
      (free : s.pending.lookup action.callId = none) (needs : action.needsAdmission = true) :
    Owned env action s (env.rejectCostChecked action s).1 (env.rejectCostChecked action s).2 none
  | waits (guarded : env.initialMode action s = 2)
      (observed : env.needsHomeObservation action s.routes = true)
      (needs : action.needsAdmission = true)
      (free : s.pending.lookup action.callId = none)
      (new : action.isStart = true → s.routes.lookup action.callId = none) :
    Owned env action s [] (spawnAdmission action 2 s) none
  | goesOn (free : action.needsAdmission = true → s.pending.lookup action.callId = none)
      (new : action.isStart = true → s.routes.lookup action.callId = none) :
    Owned env action s [] s
      (some ⟨action, env.initialMode action s, env.initialMode action s ≠ 0⟩)

variable {action : CostCheckedAction}

/-- Every start has to be admitted. -/
theorem needsAdmission_of_isStart (h : action.isStart = true) : action.needsAdmission = true := by
  cases action with
  | request => rfl
  | command command =>
    rw [CostCheckedAction.needsAdmission, show command.isStart = true from h]
    rfl
  | event => cases h

/-- What has to be admitted does not cancel what waits. -/
theorem cancelsPending_of_needs (h : action.needsAdmission = true) :
    action.cancelsPending = false := by
  cases action with
  | request => rfl
  | command command => cases command <;> first | rfl | cases h
  | event kind event => cases event <;> first | rfl | cases h

variable {env : Env} {s : Router}

/-- An action for a call of which one waits already. -/
theorem heldAction_owned (hpending : (s.pending.lookup action.callId).isSome = true)
    (hneeds : action.needsAdmission = true) :
    Owned env action s (heldAction action (env.initialMode action s) s).1
      (heldAction action (env.initialMode action s) s).2.1
      (heldAction action (env.initialMode action s) s).2.2 := by
  cases action with
  | request plan response =>
    refine .repeated _ (.inl ⟨hpending, hneeds, rfl⟩) ?_ ?_
    · intro output houtput
      rw [mem_singleton.mp houtput]
      trivial
    · rintro plan' response' ⟨⟩
      exact mem_singleton_self _
  | command command =>
    refine .repeated _ (.inl ⟨hpending, hneeds, rfl⟩) ?_ fun plan response h => by cases h
    intro output houtput
    unfold heldAction at houtput
    dsimp only at houtput
    split at houtput
    next =>
      rw [mem_singleton.mp houtput]
      rfl
    next => cases houtput
  | event kind event =>
    unfold heldAction
    dsimp only
    cases hunavailable : event.isUnavailable with
    | true =>
      obtain ⟨item, hitem⟩ := isSome_iff_exists.mp hpending
      have hstale : Owned env _ s _ _ _ := .stale kind event item rfl hunavailable hitem
      unfold dropPending
      rw [hitem]
      exact hstale
    | false =>
      exact .repeated _ (.inl ⟨hpending, hneeds, hunavailable⟩) (fun _ h => by cases h)
        fun plan response h => by cases h

/-- An action for a call of which none waits. -/
theorem freshAction_owned
    (hfree : action.needsAdmission = true → s.pending.lookup action.callId = none) :
    Owned env action s (env.freshAction action (env.initialMode action s) s).1
      (env.freshAction action (env.initialMode action s) s).2.1
      (env.freshAction action (env.initialMode action s) s).2.2 := by
  unfold freshAction
  split
  next hrouted =>
    rw [and_eq_true] at hrouted
    refine .repeated _ (.inr ⟨hrouted.2, hrouted.1⟩) ?_ ?_
    · intro output houtput
      cases action with
      | request plan response =>
        rw [mem_singleton.mp houtput]
        trivial
      | command | event => cases houtput
    · rintro plan response rfl
      exact mem_singleton_self _
  next hrouted =>
    have hnew : action.isStart = true → s.routes.lookup action.callId = none := by
      intro hstart
      rw [hstart, Bool.true_and, not_eq_true, isSome_eq_false_iff, isNone_iff_eq_none] at hrouted
      exact hrouted
    split
    next hguarded =>
      obtain ⟨hguarded, hobserved⟩ := hguarded
      have hneeds := hobserved
      unfold needsHomeObservation at hneeds
      rw [and_eq_true] at hneeds
      split
      next hmany => exact .full hguarded hobserved hmany (hfree hneeds.1) hneeds.1
      next =>
        rw [hguarded]
        exact .waits hguarded hobserved hneeds.1 (hfree hneeds.1) hnew
    next => exact .goesOn hfree hnew

/-! ## What is taken in -/

/-- The router for an action, and the messages of what it takes the place of. -/
inductive Cleared (action : CostCheckedAction) (s : Router) : List Output → Router → Prop where
  | kept (keeps : action.cancelsPending = false) : Cleared action s [] s
  | free (cancels : action.cancelsPending = true)
      (free : s.pending.lookup action.callId = none) :
    Cleared action s [] (withoutPending action.callId s)
  | cancelled (item) (cancels : action.cancelsPending = true)
      (waits : s.pending.lookup action.callId = some item) :
    Cleared action s item.action.drop (withoutPending action.callId s)

/-- Nothing makes way for an action that has to be admitted. -/
theorem Cleared.eq_of_needs {s s₁ : Router} {outputs : List Output}
    (h : Cleared action s outputs s₁) (hneeds : action.needsAdmission = true) :
    outputs = [] ∧ s₁ = s := by
  have hkeeps := cancelsPending_of_needs hneeds
  cases h with
  | kept => exact ⟨rfl, rfl⟩
  | free cancels =>
    rw [hkeeps] at cancels
    cases cancels
  | cancelled item cancels =>
    rw [hkeeps] at cancels
    cases cancels

/-- The ways a turn can go. -/
inductive Turn (env : Env) (s : Router) :
    Input → List Output → Router → Option Dispatch → Prop where
  | idle (input outputs) (noAction : input.action = none)
      (idle : ∀ output ∈ outputs, output.Idle) :
    Turn env s input outputs s none
  | closed (plan response) : Turn env s (.startCall plan response) [.dropped response] s none
  | lagged : Turn env s .commandsLagged (env.rejectPending s).1 (env.rejectPending s).2 none
  | evidence (kind) :
    Turn env s (.event kind (.observation [] .evidenceLost)) (env.evidenceLost kind s.routes) s none
  | foreign (kind event outputs)
      (owner : (ownerOf event.callId s).any (· ≠ kind) = true)
      (refusals : ∀ output ∈ outputs,
        output = .refused kind event.callId ∧ event.isIncoming = true) :
    Turn env s (.event kind event) outputs s none
  | unmatched (index result) :
    Turn env s (.joined index result) [] { s with admissions := s.admissions.eraseIdx index } none
  | resumed (index admission item home checkedAt)
      (ran : s.admissions[index]? = some admission)
      (waits : s.pending.lookup admission.callId = some item)
      (ticket : item.ticket = admission.ticket) :
    Turn env s (.joined index (some (home, checkedAt))) []
      { withoutPending admission.callId s with admissions := s.admissions.eraseIdx index }
      (some ⟨item.action, combinedMode env.gateMode item.initial,
        combinedMode env.gateMode item.initial = 1 ||
          (combinedMode env.gateMode item.initial = 2 &&
            !(home && env.now.saturatingDurationSince checkedAt < Duration.fromMillis 250))⟩)
  | owned (input action changed outputs s₁ outputs₁ s₂ d) (taken : input.action = some action)
      (owner : ∀ kind event, action = .event kind event →
        (ownerOf event.callId s).any (· ≠ kind) = false)
      (change : ∀ output ∈ changed, output = .reported (.attemptChanged action.callId))
      (cleared : Cleared action s outputs s₁) (owned : Owned env action s₁ outputs₁ s₂ d) :
    Turn env s input (changed ++ (outputs ++ outputs₁)) s₂ d

/-- What waits makes way first, then the action is taken in. -/
theorem ownedAction_spec (env : Env) (action : CostCheckedAction) (s : Router) :
    ∃ outputs s₁ outputs₁, Cleared action s outputs s₁ ∧
      Owned env action s₁ outputs₁ (env.ownedAction action s).2.1 (env.ownedAction action s).2.2 ∧
      (env.ownedAction action s).1 = outputs ++ outputs₁ := by
  have hrun : ∀ (outputs : List Output) (s₁ : Router), Cleared action s outputs s₁ →
      ((if action.cancelsPending then dropPending action.callId s else ([], s)) =
        (outputs, s₁)) →
      ∃ outputs s₁ outputs₁, Cleared action s outputs s₁ ∧
        Owned env action s₁ outputs₁ (env.ownedAction action s).2.1
          (env.ownedAction action s).2.2 ∧
        (env.ownedAction action s).1 = outputs ++ outputs₁ := by
    intro outputs s₁ hcleared heq
    unfold ownedAction
    dsimp only
    rw [heq]
    rw [show combinedMode env.gateMode (requestedMode action s₁) = env.initialMode action s₁ from
      rfl]
    split
    next hheld =>
      rw [and_eq_true] at hheld
      exact ⟨outputs, s₁, _, hcleared, heldAction_owned hheld.1 hheld.2, rfl⟩
    next hheld =>
      refine ⟨outputs, s₁, _, hcleared, freshAction_owned fun hneeds => ?_, rfl⟩
      rw [hneeds, Bool.and_true, not_eq_true, isSome_eq_false_iff, isNone_iff_eq_none] at hheld
      exact hheld
  cases hcancels : action.cancelsPending with
  | false =>
    exact hrun [] s (.kept hcancels) (by rw [hcancels]; rfl)
  | true =>
    cases hitem : s.pending.lookup action.callId with
    | none =>
      refine hrun [] _ (.free hcancels hitem) ?_
      rw [hcancels, if_pos rfl, dropPending, hitem]
      rfl
    | some item =>
      refine hrun item.action.drop _ (.cancelled item hcancels hitem) ?_
      rw [hcancels, if_pos rfl, dropPending, hitem]
      rfl

/-- The turn of an event. -/
theorem receiveEvent_turn (env : Env) (kind : AccessPathKind) (event : OperatorEvent) (s : Router) :
    Turn env s (.event kind event) (env.receiveEvent kind event s).1
      (env.receiveEvent kind event s).2.1 (env.receiveEvent kind event s).2.2 := by
  unfold receiveEvent
  dsimp only
  split
  next h =>
    subst h
    exact .evidence kind
  split
  next hforeign =>
    refine .foreign kind event _ hforeign fun output houtput => ?_
    split at houtput
    next hincoming => exact ⟨refusals_of_reject kind event.callId output houtput, hincoming⟩
    next => cases houtput
  next howner =>
    rw [not_eq_true] at howner
    obtain ⟨outputs, s₁, outputs₁, hcleared, howned, heq⟩ :=
      env.ownedAction_spec (.event kind event) s
    rw [heq]
    refine .owned (.event kind event) (.event kind event) _ outputs s₁ outputs₁ _ _ rfl ?_ ?_
      hcleared howned
    · rintro kind' event' ⟨⟩
      exact howner
    · intro output houtput
      split at houtput
      next => exact mem_singleton.mp houtput
      next => cases houtput

/-- The turn of an admission that has come back. -/
theorem receiveJoined_turn (env : Env) (index : ℕ) (result : Option (Bool × Instant)) (s : Router) :
    Turn env s (.joined index result) (env.receiveJoined index result s).1
      (env.receiveJoined index result s).2.1 (env.receiveJoined index result s).2.2 := by
  unfold receiveJoined
  split
  next => exact .idle _ [] rfl fun _ h => by cases h
  next admission hadmission =>
    dsimp only
    split
    next home checkedAt item hitem =>
      split
      next hticket =>
        exact .resumed index admission item home checkedAt hadmission hitem hticket
      next => exact .unmatched index _
    next => exact .unmatched index _

/-- Every input has a turn. -/
theorem receive_turn (env : Env) (input : Input) (s : Router) :
    Turn env s input (env.receive input s).1 (env.receive input s).2.1
      (env.receive input s).2.2 := by
  cases input with
  | command command =>
    obtain ⟨outputs, s₁, outputs₁, hcleared, howned, heq⟩ :=
      env.ownedAction_spec (.command command) s
    unfold receive
    rw [heq, ← nil_append (outputs ++ outputs₁)]
    exact .owned _ (.command command) [] outputs s₁ outputs₁ _ _ rfl
      (fun kind event h => by cases h) (fun _ h => by cases h) hcleared howned
  | commandsLagged => exact .lagged
  | startCall plan response =>
    unfold receive
    dsimp only
    split
    next => exact .closed plan response
    next =>
      obtain ⟨outputs, s₁, outputs₁, hcleared, howned, heq⟩ :=
        env.ownedAction_spec (.request plan response) s
      rw [heq, ← nil_append (outputs ++ outputs₁)]
      exact .owned _ (.request plan response) [] outputs s₁ outputs₁ _ _ rfl
        (fun kind event h => by cases h) (fun _ h => by cases h) hcleared howned
  | callAccess callId response =>
    refine .idle _ _ rfl fun output houtput => ?_
    rw [mem_singleton.mp houtput]
    trivial
  | event kind event => exact env.receiveEvent_turn kind event s
  | joined index result => exact env.receiveJoined_turn index result s
  | tick => exact .idle _ [] rfl fun _ h => by cases h

/-! ## What a turn does to the routes -/

/-- Every route is one of before, if with fewer candidates, and has kept its modes. -/
structure Shrinks (s s' : Router) : Prop where
  routes : ∀ id route', s'.routes.lookup id = some route' → ∃ route,
    s.routes.lookup id = some route ∧ (route' = route ∨ route' = { route with remaining := [] })
  modes : ∀ id, (s'.routes.lookup id).isSome = true →
    s'.modes.lookup id = s.modes.lookup id ∧ s'.startModes.lookup id = s.startModes.lookup id
  keyed : Keyed s → Keyed s'

variable {s s' : Router}

theorem Shrinks.of_same (hroutes : s'.routes = s.routes)
    (hmodes : s'.modes = s.modes) (hstart : s'.startModes = s.startModes) : Shrinks s s' := by
  refine ⟨fun id route h => ⟨route, hroutes ▸ h, .inl rfl⟩, fun id _ => ?_, fun h => ⟨?_, ?_⟩⟩
  · rw [hmodes, hstart]
    exact ⟨rfl, rfl⟩
  · rw [hmodes, hroutes]
    exact h.modes
  · rw [hstart, hroutes]
    exact h.startModes

theorem Shrinks.refl (s : Router) : Shrinks s s := .of_same rfl rfl rfl

theorem Shrinks.none (h : Shrinks s s') {id : Str}
    (hnone : s.routes.lookup id = none) : s'.routes.lookup id = none := by
  cases hroute : s'.routes.lookup id with
  | none => rfl
  | some route' =>
    obtain ⟨route, hroute, -⟩ := h.routes id route' hroute
    rw [hnone] at hroute
    cases hroute

theorem Shrinks.trans {s s' s'' : Router} (h : Shrinks s s') (h' : Shrinks s' s'') :
    Shrinks s s'' := by
  refine ⟨fun id route'' hroute'' => ?_, fun id hsome => ?_,
    fun hkeyed => h'.keyed (h.keyed hkeyed)⟩
  · obtain ⟨route', hroute', heq'⟩ := h'.routes id route'' hroute''
    obtain ⟨route, hroute, heq⟩ := h.routes id route' hroute'
    refine ⟨route, hroute, ?_⟩
    rcases heq with rfl | rfl
    · exact heq'
    · rcases heq' with rfl | rfl
      · exact .inr rfl
      · exact .inr rfl
  · obtain ⟨route'', hroute''⟩ := isSome_iff_exists.mp hsome
    obtain ⟨route', hroute', -⟩ := h'.routes id route'' hroute''
    obtain ⟨hmodes, hstart⟩ := h'.modes id hsome
    obtain ⟨hmodes', hstart'⟩ := h.modes id (by rw [hroute']; rfl)
    exact ⟨hmodes.trans hmodes', hstart.trans hstart'⟩

theorem shrinks_withoutPending (callId : Str) (s : Router) : Shrinks s (withoutPending callId s) :=
  .of_same rfl rfl rfl

theorem lookup_withoutRemaining (callId : Str) (s : Router) (id : Str) :
    (withoutRemaining callId s).routes.lookup id = if id = callId then
      (s.routes.lookup id).map fun route => { route with remaining := [] }
    else s.routes.lookup id := by
  unfold withoutRemaining
  cases hroute : s.routes.lookup callId with
  | none =>
    dsimp only
    split
    next h => rw [h, hroute, map_none]
    next => rfl
  | some route =>
    dsimp only
    split
    next h =>
      subst h
      rw [AList.lookup_insert, hroute, map_some]
    next h => exact AList.lookup_insert_ne h

theorem shrinks_withoutRemaining (callId : Str) (s : Router) :
    Shrinks s (withoutRemaining callId s) := by
  have hlookup := lookup_withoutRemaining callId s
  have hsome : ∀ id, ((withoutRemaining callId s).routes.lookup id).isSome =
      (s.routes.lookup id).isSome := by
    intro id
    rw [hlookup]
    split
    next => exact isSome_map
    next => rfl
  refine ⟨fun id route' hroute' => ?_, fun _ _ => ⟨rfl, rfl⟩,
    fun h => ⟨fun id => (h.modes id).trans (hsome id).symm,
      fun id => (h.startModes id).trans (hsome id).symm⟩⟩
  rw [hlookup] at hroute'
  split at hroute'
  next =>
    obtain ⟨route, hroute, rfl⟩ := map_eq_some_iff.mp hroute'
    exact ⟨route, hroute, .inr rfl⟩
  next => exact ⟨route', hroute', .inl rfl⟩

variable {kind : AccessPathKind}

/-- A refusal against fewer routes is one against the routes there were. -/
theorem refuses_of_shrinks (hshrinks : Shrinks s s') (h : action.Refuses s'.routes kind) :
    action.Refuses s.routes kind := by
  rcases h with h | ⟨command, route', hcommand, haccept, hroute', howner⟩
  · exact .inl h
  · obtain ⟨route, hroute, heq⟩ := hshrinks.routes _ route' hroute'
    refine .inr ⟨command, route, hcommand, haccept, hroute, ?_⟩
    rcases heq with rfl | rfl
    · exact howner
    · exact howner

/-- An action that is rejected. Where the trunk hears that the call has ended, it has. -/
structure Rejected (env : Env) (action : CostCheckedAction) (s : Router) (outputs : List Output)
    (s' : Router) : Prop where
  shrinks : Shrinks s s'
  pending : s'.pending = s.pending
  admissions : s'.admissions = s.admissions
  revision : s'.revision = s.revision
  steps : s'.steps = s.steps
  erased : s'.routes = s.routes ∨ s'.routes = s.routes.erase action.callId ∧ action.Ends
  fails : action.isStart = true → action.Fails outputs
  outputs : ∀ output ∈ outputs, output.Idle ∨
    (∃ kind, output = .refused kind action.callId ∧ action.Refuses s.routes kind ∧
      env.takes kind = true ∧ (action.Offers kind ∨ s'.routes.lookup action.callId = none)) ∨
    output = .reported (.unavailable action.callId) ∧ s'.routes.lookup action.callId = none

variable {callId : Str}

/-- The router when a call has lost its route, or kept it. -/
theorem shrinks_of_erase {routes : Routes}
    (hroutes : routes = s.routes ∨ routes = s.routes.erase callId) :
    Shrinks s (if (routes.lookup callId).isSome then { s with routes } else { s with
        routes
        modes := s.modes.erase callId
        startModes := s.startModes.erase callId }) := by
  have hlookup : ∀ id, id ≠ callId → routes.lookup id = s.routes.lookup id := by
    intro id hne
    rcases hroutes with rfl | rfl
    · rfl
    · exact AList.lookup_erase_ne hne
  have hsub : ∀ id route, routes.lookup id = some route → s.routes.lookup id = some route := by
    intro id route hroute
    rcases hroutes with rfl | rfl
    · exact hroute
    · by_cases hid : id = callId
      · subst hid
        rw [AList.lookup_erase] at hroute
        cases hroute
      · rwa [AList.lookup_erase_ne hid] at hroute
  cases hcall : routes.lookup callId with
  | some route =>
    have hsame : ∀ id, routes.lookup id = s.routes.lookup id := by
      intro id
      by_cases hid : id = callId
      · rw [hid, hcall, hsub callId route hcall]
      · exact hlookup id hid
    exact ⟨fun id route h => ⟨route, hsub id route h, .inl rfl⟩, fun _ _ => ⟨rfl, rfl⟩,
      fun h => ⟨fun id => (h.modes id).trans (congrArg isSome (hsame id).symm),
        fun id => (h.startModes id).trans (congrArg isSome (hsame id).symm)⟩⟩
  | none =>
    rw [isSome_none, if_neg (by decide)]
    refine ⟨fun id route h => ⟨route, hsub id route h, .inl rfl⟩, fun id hsome => ?_,
      fun h => ⟨fun id => ?_, fun id => ?_⟩⟩
    · have hne : id ≠ callId := by
        rintro rfl
        rw [hcall] at hsome
        cases hsome
      exact ⟨AList.lookup_erase_ne hne, AList.lookup_erase_ne hne⟩
    · dsimp only
      by_cases hid : id = callId
      · rw [hid, AList.lookup_erase, hcall]
        rfl
      · rw [AList.lookup_erase_ne hid, hlookup id hid, h.modes]
    · dsimp only
      by_cases hid : id = callId
      · rw [hid, AList.lookup_erase, hcall]
        rfl
      · rw [AList.lookup_erase_ne hid, hlookup id hid, h.startModes]

theorem takes_of_reject {output : Output}
    (h : output ∈ env.rejectIncomingCollision kind callId) : env.takes kind = true := by
  unfold rejectIncomingCollision at h
  split at h
  next htakes => exact htakes
  next => cases h

/-- A rejection takes the route away or leaves it, and says so. -/
structure Rejection (env : Env) (action : CostCheckedAction) (routes : Routes)
    (outputs : List Output) (routes' : Routes) : Prop where
  erased : routes' = routes ∨ routes' = routes.erase action.callId ∧ action.Ends
  fails : action.isStart = true → action.Fails outputs
  outputs : ∀ output ∈ outputs, output.Idle ∨
    (∃ kind, output = .refused kind action.callId ∧ action.Refuses routes kind ∧
      env.takes kind = true ∧ (action.Offers kind ∨ routes' = routes.erase action.callId)) ∨
    output = .reported (.unavailable action.callId) ∧ routes' = routes.erase action.callId

/-- How an event is rejected. -/
theorem rejection_event (env : Env) (kind : AccessPathKind) (event : OperatorEvent)
    (routes : Routes) :
    Rejection env (.event kind event) routes (env.rejection (.event kind event) routes).1
      (env.rejection (.event kind event) routes).2 := by
  unfold rejection
  dsimp only
  split
  next hincoming =>
    refine ⟨.inl rfl, fun h => (by cases h), fun output houtput => .inr (.inl ⟨kind, ?_⟩)⟩
    exact ⟨refusals_of_reject kind _ output houtput, .inl ⟨event, rfl, hincoming⟩,
      takes_of_reject houtput, .inl ⟨event, rfl, hincoming⟩⟩
  next hincoming =>
    rw [not_eq_true] at hincoming
    refine ⟨.inr ⟨rfl, ?_⟩, fun h => (by cases h), fun output houtput =>
      .inr (.inr ⟨mem_singleton.mp houtput, rfl⟩)⟩
    rintro kind' event' ⟨⟩
    exact hincoming

/-- How a command is rejected. -/
theorem rejection_command (env : Env) (command : OperatorCommand) (routes : Routes) :
    Rejection env (.command command) routes (env.rejection (.command command) routes).1
      (env.rejection (.command command) routes).2 := by
  have hends : (CostCheckedAction.command command).Ends := fun kind event h => by cases h
  unfold rejection
  dsimp only
  split
  next htransfer =>
    refine ⟨.inl rfl, fun hstart => ?_, fun output houtput => .inl ?_⟩
    · replace hstart : command.isStart = true := hstart
      cases command <;> first | cases hstart; done | cases htransfer
    · rw [mem_singleton.mp houtput]
      rfl
  split
  next haccept =>
    refine ⟨.inr ⟨rfl, hends⟩, fun _ => mem_append_right _ (mem_singleton_self _),
      fun output houtput => ?_⟩
    rcases mem_append.mp houtput with hrefused | hended
    · cases hroute : routes.lookup (CostCheckedAction.command command).callId with
      | none =>
        rw [hroute] at hrefused
        cases hrefused
      | some route =>
        rw [hroute] at hrefused
        exact .inr (.inl ⟨route.owner, refusals_of_reject route.owner _ output hrefused,
          .inr ⟨command, route, rfl, haccept, hroute, rfl⟩, takes_of_reject hrefused, .inr rfl⟩)
    · exact .inr (.inr ⟨mem_singleton.mp hended, rfl⟩)
  next =>
    exact ⟨.inr ⟨rfl, hends⟩, fun _ => mem_singleton_self _, fun output houtput =>
      .inr (.inr ⟨mem_singleton.mp houtput, rfl⟩)⟩

/-- How any action is rejected. -/
theorem rejection_spec (env : Env) (action : CostCheckedAction) (routes : Routes) :
    Rejection env action routes (env.rejection action routes).1
      (env.rejection action routes).2 := by
  cases action with
  | request plan response =>
    refine ⟨.inl rfl, fun _ => .inr ⟨.routerUnavailable, mem_singleton_self _⟩,
      fun output houtput => .inl ?_⟩
    rw [mem_singleton.mp houtput]
    trivial
  | event kind event => exact env.rejection_event kind event routes
  | command command => exact env.rejection_command command routes

theorem rejectCostChecked_rejected (env : Env) (action : CostCheckedAction) (s : Router) :
    Rejected env action s (env.rejectCostChecked action s).1
      (env.rejectCostChecked action s).2 := by
  have hspec := env.rejection_spec action s.routes
  have hfields : ∀ routes : Routes, ∀ s' : Router,
      s' = (if (routes.lookup action.callId).isSome then { s with routes }
        else { s with
          routes
          modes := s.modes.erase action.callId
          startModes := s.startModes.erase action.callId }) →
      s'.routes = routes ∧ s'.pending = s.pending ∧ s'.admissions = s.admissions ∧
        s'.revision = s.revision ∧ s'.steps = s.steps := by
    intro routes s' h
    subst h
    split
    next => exact ⟨rfl, rfl, rfl, rfl, rfl⟩
    next => exact ⟨rfl, rfl, rfl, rfl, rfl⟩
  obtain ⟨hrouted, hpending, hadmissions, hrevision, hsteps⟩ :=
    hfields (env.rejection action s.routes).2 (env.rejectCostChecked action s).2 rfl
  refine ⟨shrinks_of_erase (hspec.erased.imp_right And.left), hpending, hadmissions, hrevision,
    hsteps, ?_, hspec.fails, ?_⟩
  · rw [hrouted]
    exact hspec.erased
  · intro output houtput
    have hgone : (env.rejection action s.routes).2 = s.routes.erase action.callId →
        (env.rejectCostChecked action s).2.routes.lookup action.callId = none := by
      intro herased
      rw [hrouted, herased]
      exact AList.lookup_erase ..
    rcases hspec.outputs output houtput with
      hidle | ⟨kind, heq, hrefuses, htakes, hwhy⟩ | ⟨heq, herased⟩
    · exact .inl hidle
    · exact .inr (.inl ⟨kind, heq, hrefuses, htakes, hwhy.imp_right hgone⟩)
    · exact .inr (.inr ⟨heq, hgone herased⟩)

/-- These actions are rejected, one after another. -/
structure AllRejected (env : Env) (items : List PendingAdmission) (s : Router)
    (outputs : List Output) (s' : Router) : Prop where
  shrinks : Shrinks s s'
  pending : s'.pending = s.pending
  admissions : s'.admissions = s.admissions
  revision : s'.revision = s.revision
  steps : s'.steps = s.steps
  erased : ∀ id, s'.routes.lookup id = s.routes.lookup id ∨ s'.routes.lookup id = none ∧
    ∃ item ∈ items, item.action.callId = id ∧ item.action.Ends
  fails : ∀ item ∈ items, item.action.isStart = true → item.action.Fails outputs
  outputs : ∀ output ∈ outputs, output.Idle ∨
    (∃ item ∈ items, ∃ kind, output = .refused kind item.action.callId ∧
      item.action.Refuses s.routes kind ∧ env.takes kind = true ∧
      (item.action.Offers kind ∨ s'.routes.lookup item.action.callId = none)) ∨
    ∃ callId, output = .reported (.unavailable callId) ∧ s'.routes.lookup callId = none

variable {item : PendingAdmission}

/-- One action more is rejected. -/
theorem AllRejected.snoc {items : List PendingAdmission} {s s₁ s₂ : Router}
    {outputs more : List Output} (h : AllRejected env items s outputs s₁)
    (h' : Rejected env item.action s₁ more s₂) :
    AllRejected env (items ++ [item]) s (outputs ++ more) s₂ := by
  have hmem : ∀ {i}, i ∈ items → i ∈ items ++ [item] := mem_append_left _
  refine ⟨h.shrinks.trans h'.shrinks, h'.pending.trans h.pending,
    h'.admissions.trans h.admissions, h'.revision.trans h.revision, h'.steps.trans h.steps,
    fun id => ?_, fun i hi hstart => ?_, fun output houtput => ?_⟩
  · have hearlier : s₂.routes.lookup id = s₁.routes.lookup id →
        s₂.routes.lookup id = s.routes.lookup id ∨ s₂.routes.lookup id = none ∧
          ∃ i ∈ items ++ [item], i.action.callId = id ∧ i.action.Ends := by
      intro heq
      rw [heq]
      rcases h.erased id with hsame | ⟨hgone, i, hi, hid, hends⟩
      · exact .inl hsame
      · exact .inr ⟨hgone, i, hmem hi, hid, hends⟩
    rcases h'.erased with hsame | ⟨herased, hends⟩
    · exact hearlier (by rw [hsame])
    · by_cases hid : id = item.action.callId
      · refine .inr ⟨?_, item, by simp, hid.symm, hends⟩
        rw [herased, hid]
        exact AList.lookup_erase ..
      · refine hearlier ?_
        rw [herased]
        exact AList.lookup_erase_ne hid
  · rcases mem_append.mp hi with hold | hnew
    · exact (h.fails i hold hstart).mono (subset_append_left _ _)
    · obtain rfl := mem_singleton.mp hnew
      exact (h'.fails hstart).mono (subset_append_right _ _)
  · rcases mem_append.mp houtput with hold | hnew
    · rcases h.outputs output hold with
        hidle | ⟨i, hi, kind, heq, hrefuses, htakes, hwhy⟩ | ⟨callId, heq, hnone⟩
      · exact .inl hidle
      · exact .inr (.inl ⟨i, hmem hi, kind, heq, hrefuses, htakes,
          hwhy.imp_right h'.shrinks.none⟩)
      · exact .inr (.inr ⟨callId, heq, h'.shrinks.none hnone⟩)
    · rcases h'.outputs output hnew with
        hidle | ⟨kind, heq, hrefuses, htakes, hwhy⟩ | ⟨heq, hnone⟩
      · exact .inl hidle
      · exact .inr (.inl ⟨item, by simp, kind, heq, refuses_of_shrinks h.shrinks hrefuses,
          htakes, hwhy⟩)
      · exact .inr (.inr ⟨_, heq, hnone⟩)

/-- The actions that wait, in the order in which the map is gone through. -/
def waiting (env : Env) (s : Router) : List PendingAdmission :=
  (env.order s.pending.keys).filterMap (s.pending.lookup ·)

/-- What waits is what the map holds. -/
theorem mem_waiting : item ∈ env.waiting s ↔ ∃ id, s.pending.lookup id = some item := by
  unfold waiting
  rw [mem_filterMap]
  refine ⟨fun ⟨id, _, h⟩ => ⟨id, h⟩, fun ⟨id, h⟩ => ⟨id, ?_, h⟩⟩
  rw [(env.order_perm _).mem_iff]
  exact AList.mem_keys.mp (AList.lookup_isSome.mp (by rw [h]; rfl))

/-- All that waits is rejected, in order. -/
theorem rejectPending_rejected (env : Env) (s : Router) :
    AllRejected env (env.waiting s) { s with pending := ∅ } (env.rejectPending s).1
      (env.rejectPending s).2 := by
  have hwaiting : (env.order s.pending.keys).filterMap (s.pending.lookup ·) = env.waiting s := rfl
  unfold rejectPending
  rw [hwaiting]
  generalize env.waiting s = items
  generalize { s with pending := ∅ } = s₀
  induction items using reverseRecOn with
  | nil =>
    exact ⟨Shrinks.refl s₀, rfl, rfl, rfl, rfl, fun _ => .inl rfl, fun _ h => (by cases h),
      fun _ h => by cases h⟩
  | append_singleton items item ih =>
    rw [foldl_append]
    exact ih.snoc (env.rejectCostChecked_rejected item.action _)

end Env

end SimMaster.Trunk
