import SimMaster.AccessRouter

/-!
# What an action does to its call

An action that goes on concerns one call. There are not many things it can do to the route of the
call, and each lets out its own messages.
-/

namespace SimMaster.Trunk

open Rust Option

namespace Env

/-! ## The leg that takes a start -/

/-- The leg takes commands, in this generation. -/
structure Leg.Live (env : Env) (leg : Leg) : Prop where
  takes : env.takes leg.kind = true
  generation : (env.backend leg.kind).any (·.link.accessGeneration == leg.generation) = true

/-- The leg is one of these candidates, and the others after it are left. -/
structure Leg.Among (leg : Leg) (commandFor : AccessPathKind → Option OperatorCommand)
    (eligible : AccessPathKind → OperatorCommand → Bool) (kinds : List AccessPathKind) : Prop where
  command : commandFor leg.kind = some leg.command
  eligible : eligible leg.kind leg.command = true
  split : ∃ front, kinds = front ++ leg.kind :: leg.remaining

variable {leg : Leg}

/-- The leg that is found can be used, and is one of the candidates. -/
theorem firstLeg_eq_some {env : Env} {commandFor : AccessPathKind → Option OperatorCommand}
    {eligible : AccessPathKind → OperatorCommand → Bool} {kinds : List AccessPathKind}
    (h : env.firstLeg commandFor eligible kinds = some leg) :
    leg.Live env ∧ leg.Among commandFor eligible kinds := by
  induction kinds with
  | nil => cases h
  | cons kind remaining ih =>
    have hrest : env.firstLeg commandFor eligible remaining = some leg →
        leg.Live env ∧ leg.Among commandFor eligible (kind :: remaining) := fun h => by
      obtain ⟨hlive, hamong⟩ := ih h
      obtain ⟨front, hsplit⟩ := hamong.split
      exact ⟨hlive, hamong.command, hamong.eligible, kind :: front, by rw [hsplit]; rfl⟩
    unfold firstLeg at h
    split at h
    next command selected hcommand hselected =>
      split at h
      next htaken =>
        obtain rfl := some.inj h
        rw [Bool.and_eq_true] at htaken
        refine ⟨⟨?_, ?_⟩, hcommand, htaken.1, [], rfl⟩
        · simp only [takes, hselected, any_some, htaken.2]
        · simp only [hselected, any_some, beq_self_eq_true]
      next => exact hrest h
    next => exact hrest h

/-! ## The effects -/

/-- The route that a start makes. -/
def Leg.route (leg : Leg) (plan : Option VoiceCallPlan) : CallRoute :=
  { owner := leg.kind
    accessGeneration := leg.generation
    remaining := leg.remaining
    start := some leg.command
    startPlan := plan }

/-- The route of a call that came in. -/
def incomingRoute (env : Env) (kind : AccessPathKind) : CallRoute :=
  { owner := kind
    accessGeneration := ((env.backend kind).map (·.link.accessGeneration)).getD 0
    remaining := []
    start := none
    startPlan := none }

/-- The messages of a command that its owner does not take. -/
def undelivered (command : OperatorCommand) : List Output :=
  if command.isTransfer then [.reported (.transferResponse command.callId 503)]
  else [.reported (.unavailable command.callId)]

/-- What a start, a command or an event does to the route of its call. -/
inductive Effect (env : Env) (onlyWifi : Bool) :
    CostCheckedAction → Option CallRoute → List Output → Option CallRoute → Prop where
  | abandoned (plan response route) :
    Effect env onlyWifi (.request plan response) route [.dropped response] route
  | notPlanned (plan response route error) :
    Effect env onlyWifi (.request plan response) route [.responded response (.error error)] route
  | planned (plan response route) (leg : Leg) (live : leg.Live env)
      (among : leg.Among plan.commandFor (startEligible onlyWifi) (env.routePlan false)) :
    Effect env onlyWifi (.request plan response) route
      [.sent leg.kind leg.command, .reported (.started plan.callId plan.caller plan.callee),
        .responded response (.ok ⟨plan.callId, leg.kind⟩)] (some (leg.route (some plan)))
  /-- The waiter has gone, and the call is cancelled at once. -/
  | withdrawn (plan response route) (leg : Leg) (live : leg.Live env)
      (among : leg.Among plan.commandFor (startEligible onlyWifi) (env.routePlan false)) :
    Effect env onlyWifi (.request plan response) route
      [.sent leg.kind leg.command, .reported (.started plan.callId plan.caller plan.callee),
        .responded response (.ok ⟨plan.callId, leg.kind⟩),
        .sent leg.kind (.cancelCall plan.callId),
        .reported (.observation plan.callId .localCancelled)] none
  | notStarted (command caller callee route) (start : command.isStart = true) :
    Effect env onlyWifi (.command command) route
      [.reported (.started command.callId caller callee), .reported (.unavailable command.callId)]
      route
  | started (command caller callee route) (start : command.isStart = true) (leg : Leg)
      (live : leg.Live env)
      (among : leg.Among (fun _ => some command) (startEligible onlyWifi)
        (env.routePlan command.asksVideo)) :
    Effect env onlyWifi (.command command) route
      [.reported (.started command.callId caller callee), .sent leg.kind command]
      (some (leg.route none))
  | unrouted (command) (start : command.isStart = false) :
    Effect env onlyWifi (.command command) none
      (if command.isTransfer then [.reported (.transferResponse command.callId 481)]
        else [.reported (.unavailable command.callId)]) none
  /-- The owner is no longer the one that has the call. -/
  | outdated (command route) (start : command.isStart = false)
      (stale : env.generationCurrent route = false) :
    Effect env onlyWifi (.command command) (some route)
      [.reported (.unavailable command.callId)] none
  | notAccepted (command route) (accept : command.isAccept = true)
      (current : env.generationCurrent route = true) (guarded : onlyWifi = true)
      (owner : route.owner ≠ .vowifi) :
    Effect env onlyWifi (.command command) (some route)
      (env.rejectIncomingCollision route.owner command.callId ++
        [Output.reported (.unavailable command.callId)]) none
  | forbidden (command route) (transfer : command.isTransfer = true)
      (guarded : onlyWifi = true) (owner : route.owner ≠ .vowifi) :
    Effect env onlyWifi (.command command) (some route)
      [.reported (.transferResponse command.callId 403)] (some route)
  | delivered (command route) (start : command.isStart = false)
      (current : env.generationCurrent route = true) (takes : env.takes route.owner = true)
      (open_ : onlyWifi = true → route.owner ≠ .vowifi → command.isAccept = false) :
    Effect env onlyWifi (.command command) (some route)
      (.sent route.owner command ::
        if command.isTerminal then [.reported (.observation command.callId .localCancelled)]
        else []) (if command.isTerminal then none else some route)
  | undelivered (command route) (start : command.isStart = false)
      (current : env.generationCurrent route = true) (takes : env.takes route.owner = false)
      (open_ : onlyWifi = true → route.owner ≠ .vowifi → command.isAccept = false) :
    Effect env onlyWifi (.command command) (some route)
      (undelivered command ++
        if command.isTerminal then [.reported (.observation command.callId .localCancelled)]
        else []) (if command.isTerminal then none else some route)
  /-- A leg that does not own the call, or that may not have it. -/
  | ignored (kind event route outputs)
      (refusals : ∀ output ∈ outputs, output = .refused kind event.callId ∧
        event.isIncoming = true ∧ ∀ r, route = some r → r.owner ≠ kind)
      (foreign : ∀ r, route = some r → r.owner = kind → event.isIncoming = true) :
    Effect env onlyWifi (.event kind event) route outputs route
  | incoming (kind event) (incoming : event.isIncoming = true) :
    Effect env onlyWifi (.event kind event) none [.forwarded kind event]
      (some (env.incomingRoute kind))
  | lost (event route) (stale : env.generationCurrent route = false) :
    Effect env onlyWifi (.event route.owner event) (some route)
      [.reported (.unavailable event.callId)] none
  | failedOver (event route) (unavailable : event.isUnavailable = true) (leg : Leg)
      (live : leg.Live env) (remaining : List AccessPathKind)
      (sub : remaining = [] ∨ remaining = route.remaining)
      (among : leg.Among
        (fun next => (route.startPlan.bind (·.commandFor next)).or route.start)
        (env.failoverEligible onlyWifi) remaining) :
    Effect env onlyWifi (.event route.owner event) (some route)
      [.sent leg.kind leg.command, .reported (.attemptChanged event.callId)]
      (some { route with
        owner := leg.kind
        remaining := leg.remaining
        accessGeneration := leg.generation
        start := some leg.command })
  | forwarded (event route) (incoming : event.isIncoming = false) :
    Effect env onlyWifi (.event route.owner event) (some route)
      [.forwarded route.owner event]
      (if event.isTerminal then none
        else if event.isAnswer then
          some { route with start := none, startPlan := none, remaining := [] }
        else some route)

/-- Only the route of this call has changed. -/
def Elsewhere (callId : Str) (routes routes' : Routes) : Prop :=
  ∀ id ≠ callId, routes'.lookup id = routes.lookup id

section Effects

variable {env : Env} {onlyWifi : Bool} {routes : Routes} (callId : Str)

theorem Elsewhere.refl (routes : Routes) : Elsewhere callId routes routes :=
  fun _ _ => rfl

theorem Elsewhere.insert (routes : Routes) (route : CallRoute) :
    Elsewhere callId routes (routes.insert callId route) :=
  fun _ h => AList.lookup_insert_ne h

theorem Elsewhere.erase (routes : Routes) : Elsewhere callId routes (routes.erase callId) :=
  fun _ h => AList.lookup_erase_ne h

theorem Elsewhere.trans {callId : Str} {routes' routes'' : Routes}
    (h : Elsewhere callId routes routes') (h' : Elsewhere callId routes' routes'') :
    Elsewhere callId routes routes'' :=
  fun id hne => (h' id hne).trans (h id hne)

variable {command : OperatorCommand}

/-- A start goes to the first leg that can be used, or is reported unavailable. -/
theorem routeStart_effect (hstart : command.isStart = true) (caller callee : Str) :
    Effect env onlyWifi (.command command) (routes.lookup command.callId)
        (env.routeStart command caller callee onlyWifi routes).1
        ((env.routeStart command caller callee onlyWifi routes).2.lookup command.callId) ∧
      Elsewhere command.callId routes (env.routeStart command caller callee onlyWifi routes).2 := by
  unfold routeStart
  cases hleg : env.firstLeg (fun _ => some command) (startEligible onlyWifi)
      (env.routePlan command.asksVideo) with
  | none => exact ⟨.notStarted command caller callee _ hstart, Elsewhere.refl _ _⟩
  | some leg =>
    obtain ⟨hlive, hamong⟩ := firstLeg_eq_some hleg
    rw [AList.lookup_insert]
    have hcommand := some.inj hamong.command
    have heffect := Effect.started command caller callee (routes.lookup command.callId) hstart leg
      hlive hamong
    rw [Leg.route, ← hcommand] at heffect
    exact ⟨heffect, Elsewhere.insert _ _ _⟩

/-- A command goes to the owner, and a terminal one is reported as a local end besides. -/
theorem routeOwned_eq (command : OperatorCommand) (route : CallRoute) :
    env.routeOwned command route = (if env.takes route.owner then [.sent route.owner command]
        else undelivered command) ++
      if command.isTerminal then [.reported (.observation command.callId .localCancelled)]
      else [] := by
  unfold routeOwned undelivered
  cases command.isTerminal with
  | true => rfl
  | false => simp

/-- Any other command follows the route of its call. -/
theorem routeControl_effect (hstart : command.isStart = false) :
    Effect env onlyWifi (.command command) (routes.lookup command.callId)
        (env.routeControl command onlyWifi routes).1
        ((env.routeControl command onlyWifi routes).2.lookup command.callId) ∧
      Elsewhere command.callId routes (env.routeControl command onlyWifi routes).2 := by
  unfold routeControl
  dsimp only
  cases hroute : routes.lookup command.callId with
  | none =>
    rw [hroute]
    exact ⟨.unrouted command hstart, Elsewhere.refl _ _⟩
  | some route =>
    dsimp only
    by_cases hcurrent : env.generationCurrent route = true
    · rw [hcurrent, Bool.not_true, if_neg (by decide)]
      by_cases haccept : (onlyWifi && route.owner ≠ .vowifi && command.isAccept) = true
      · rw [if_pos haccept]
        rw [Bool.and_eq_true, Bool.and_eq_true, decide_eq_true_eq] at haccept
        rw [AList.lookup_erase]
        exact ⟨.notAccepted command route haccept.2 hcurrent haccept.1.1 haccept.1.2,
          Elsewhere.erase _ _⟩
      rw [if_neg haccept]
      have hopen : onlyWifi = true → route.owner ≠ .vowifi → command.isAccept = false := by
        intro hguarded howner
        rw [hguarded, decide_eq_true howner, Bool.true_and, Bool.true_and,
          Bool.not_eq_true] at haccept
        exact haccept
      by_cases htransfer : (onlyWifi && route.owner ≠ .vowifi && command.isTransfer) = true
      · rw [if_pos htransfer]
        rw [Bool.and_eq_true, Bool.and_eq_true, decide_eq_true_eq] at htransfer
        rw [hroute]
        exact ⟨.forbidden command route htransfer.2 htransfer.1.1 htransfer.1.2, Elsewhere.refl _ _⟩
      rw [if_neg htransfer]
      have hafter : (if command.isTerminal = true then routes.erase command.callId
          else routes).lookup command.callId =
          if command.isTerminal = true then none else some route := by
        split
        next => exact AList.lookup_erase ..
        next => exact hroute
      have helsewhere : Elsewhere command.callId routes
          (if command.isTerminal = true then routes.erase command.callId else routes) := by
        split
        next => exact Elsewhere.erase _ _
        next => exact Elsewhere.refl _ _
      rw [hafter, routeOwned_eq]
      refine ⟨?_, helsewhere⟩
      cases htakes : env.takes route.owner with
      | true => exact .delivered command route hstart hcurrent htakes hopen
      | false => exact .undelivered command route hstart hcurrent htakes hopen
    · rw [Bool.not_eq_true] at hcurrent
      rw [hcurrent, Bool.not_false, if_pos rfl]
      rw [AList.lookup_erase]
      exact ⟨.outdated command route hstart hcurrent, Elsewhere.erase _ _⟩

/-- Every command has an effect of its kind, and on its own call alone. -/
theorem routeCommand_effect (env : Env) (onlyWifi : Bool) (routes : Routes)
    (command : OperatorCommand) :
    Effect env onlyWifi (.command command) (routes.lookup command.callId)
        (env.routeCommand command onlyWifi routes).1
        ((env.routeCommand command onlyWifi routes).2.lookup command.callId) ∧
      Elsewhere command.callId routes (env.routeCommand command onlyWifi routes).2 := by
  cases command with
  | startCall callId caller callee ip offer => exact routeStart_effect rfl caller callee
  | cancelCall | hangupCall | renegotiate | acceptRenegotiation | rejectRenegotiation
  | reportProvisional | acceptCall | rejectCall | sendDtmf | transferCall =>
    exact routeControl_effect rfl

/-- A collision is answered with a refusal at most. -/
theorem refusals_of_reject (kind : AccessPathKind) (callId : Str) :
    ∀ output ∈ env.rejectIncomingCollision kind callId, output = .refused kind callId := by
  intro output houtput
  unfold rejectIncomingCollision at houtput
  split at houtput
  next => exact List.mem_singleton.mp houtput
  next => cases houtput

variable {event : OperatorEvent}

/-- A call that comes in gets a route, or is refused or ignored. -/
theorem routeIncoming_effect (hincoming : event.isIncoming = true) (kind : AccessPathKind) :
    Effect env onlyWifi (.event kind event) (routes.lookup event.callId)
        (env.routeIncoming kind event onlyWifi routes).1
        ((env.routeIncoming kind event onlyWifi routes).2.lookup event.callId) ∧
      Elsewhere event.callId routes (env.routeIncoming kind event onlyWifi routes).2 := by
  unfold routeIncoming
  dsimp only
  cases hroute : routes.lookup event.callId with
  | some route =>
    dsimp only
    rw [hroute]
    refine ⟨.ignored kind event (some route) _ ?_ fun _ _ _ => hincoming, Elsewhere.refl _ _⟩
    intro output houtput
    split at houtput
    next howner =>
      refine ⟨refusals_of_reject kind event.callId output houtput, hincoming, ?_⟩
      rintro r ⟨⟩
      exact howner
    next => cases houtput
  | none =>
    dsimp only
    split
    next =>
      rw [hroute]
      exact ⟨.ignored kind event none _
        (fun output h => ⟨refusals_of_reject kind event.callId output h, hincoming,
          fun _ h => by cases h⟩)
        fun _ h _ => (by cases h), Elsewhere.refl _ _⟩
    next =>
      rw [AList.lookup_insert]
      exact ⟨.incoming kind event hincoming, Elsewhere.insert _ _ _⟩

variable {route : CallRoute}

/-- An event of the owner is passed on, and a terminal one ends the route. -/
theorem routeForwarded_effect (hincoming : event.isIncoming = false)
    (hroute : routes.lookup event.callId = some route) :
    Effect env onlyWifi (.event route.owner event) (some route)
        (routeForwarded route.owner event route routes).1
        ((routeForwarded route.owner event route routes).2.lookup event.callId) ∧
      Elsewhere event.callId routes (routeForwarded route.owner event route routes).2 := by
  have hafter : (routeForwarded route.owner event route routes).2.lookup event.callId =
      if event.isTerminal then none
      else if event.isAnswer then
        some { route with start := none, startPlan := none, remaining := [] }
      else some route := by
    unfold routeForwarded
    split
    next => exact AList.lookup_erase ..
    split
    next => exact AList.lookup_insert ..
    next => exact hroute
  rw [hafter]
  refine ⟨.forwarded event route hincoming, ?_⟩
  unfold routeForwarded
  split
  next => exact Elsewhere.erase _ _
  split
  next => exact Elsewhere.insert _ _ _
  next => exact Elsewhere.refl _ _

/-- An event of the owner is passed on, or the call goes to the next leg or is lost. -/
theorem routeOfOwner_effect (hincoming : event.isIncoming = false)
    (hroute : routes.lookup event.callId = some route) :
    Effect env onlyWifi (.event route.owner event) (some route)
        (env.routeOfOwner route.owner event onlyWifi route routes).1
        ((env.routeOfOwner route.owner event onlyWifi route routes).2.lookup event.callId) ∧
      Elsewhere event.callId routes
        (env.routeOfOwner route.owner event onlyWifi route routes).2 := by
  unfold routeOfOwner
  split
  next hlost =>
    rw [Bool.and_eq_true, Bool.not_eq_true'] at hlost
    rw [AList.lookup_erase]
    exact ⟨.lost event route hlost.1, Elsewhere.erase _ _⟩
  split
  next leg hleg =>
    split at hleg
    next hunavailable =>
      obtain ⟨hlive, hamong⟩ := firstLeg_eq_some hleg
      rw [AList.lookup_insert]
      refine ⟨.failedOver event route hunavailable leg hlive _ ?_ hamong, Elsewhere.insert _ _ _⟩
      split
      next => exact .inl rfl
      next => exact .inr rfl
    next => cases hleg
  next => exact routeForwarded_effect hincoming hroute

/-- Every event has an effect of its kind, and on its own call alone. -/
theorem routeEvent_effect (env : Env) (onlyWifi : Bool) (routes : Routes) (kind : AccessPathKind)
    (event : OperatorEvent) : Effect env onlyWifi (.event kind event) (routes.lookup event.callId)
        (env.routeEvent kind event onlyWifi routes).1
        ((env.routeEvent kind event onlyWifi routes).2.lookup event.callId) ∧
      Elsewhere event.callId routes (env.routeEvent kind event onlyWifi routes).2 := by
  unfold routeEvent
  split
  next hincoming => exact routeIncoming_effect hincoming kind
  next hincoming =>
    rw [Bool.not_eq_true] at hincoming
    cases hroute : routes.lookup event.callId with
    | none =>
      rw [hroute]
      exact ⟨.ignored kind event none [] (fun _ h => by cases h) fun _ h _ => (by cases h),
        Elsewhere.refl _ _⟩
    | some route =>
      dsimp only
      split
      next hforeign =>
        rw [hroute]
        refine ⟨.ignored kind event (some route) [] (fun _ h => by cases h) ?_,
          Elsewhere.refl _ _⟩
        intro r hr howner
        rw [← some.inj hr] at howner
        exact absurd howner hforeign
      next howner =>
        rw [not_not] at howner
        subst howner
        exact routeOfOwner_effect hincoming hroute

/-- A cancel right behind the start takes the new route away again. -/
theorem cancel_of_live (hlive : leg.Live env) (plan : Option VoiceCallPlan) (callId : Str) :
    env.routeCommand (.cancelCall callId) onlyWifi (routes.insert callId (leg.route plan)) =
      ([.sent leg.kind (.cancelCall callId), .reported (.observation callId .localCancelled)],
        (routes.insert callId (leg.route plan)).erase callId) := by
  have hcurrent : env.generationCurrent (leg.route plan) = true := hlive.generation
  have htakes : env.takes (leg.route plan).owner = true := hlive.takes
  rw [routeCommand, routeControl]
  · dsimp only [OperatorCommand.callId]
    rw [AList.lookup_insert]
    dsimp only
    rw [hcurrent, routeOwned_eq, htakes]
    simp [OperatorCommand.isAccept, OperatorCommand.isTransfer, OperatorCommand.isTerminal,
      OperatorCommand.callId, Leg.route]
  · intro callId' caller callee ip offer h
    cases h

/-- A request starts its call, and is told how that went. -/
theorem dispatchRequest_effect (env : Env) (onlyWifi : Bool) {routes : Routes}
    (plan : VoiceCallPlan) (response initialMode : ℕ) (hnone : routes.lookup plan.callId = none) :
    Effect env onlyWifi (.request plan response) none
        (env.dispatchRequest plan response initialMode onlyWifi routes).1
        ((env.dispatchRequest plan response initialMode onlyWifi routes).2.lookup plan.callId) ∧
      Elsewhere plan.callId routes
        (env.dispatchRequest plan response initialMode onlyWifi routes).2 := by
  have hfailed : ∀ error, Effect env onlyWifi (.request plan response) none
      ([] ++ [Output.responded response (.error error)]) none := fun error =>
    .notPlanned plan response none error
  unfold dispatchRequest routeCallPlan
  by_cases hadmitted : plan.admissionCurrent env = true
  · rw [hadmitted, Bool.not_true, if_neg (by decide)]
    cases hleg : env.firstLeg plan.commandFor (startEligible onlyWifi) (env.routePlan false) with
    | none =>
      dsimp only
      rw [hnone, isSome_none, Bool.and_false, if_neg (by decide)]
      rw [hnone]
      exact ⟨hfailed _, Elsewhere.refl _ _⟩
    | some leg =>
      obtain ⟨hlive, hamong⟩ := firstLeg_eq_some hleg
      have hroute : ({
          owner := leg.kind
          remaining := leg.remaining
          start := some leg.command
          startPlan := some plan
          accessGeneration := leg.generation } : CallRoute) = leg.route (some plan) := rfl
      dsimp only
      rw [hroute, AList.lookup_insert, isSome_some, Bool.and_true]
      split
      next =>
        rw [cancel_of_live hlive]
        rw [AList.lookup_erase]
        exact ⟨.withdrawn plan response none leg hlive hamong,
          (Elsewhere.insert _ _ _).trans (Elsewhere.erase _ _)⟩
      next =>
        rw [AList.lookup_insert]
        exact ⟨.planned plan response none leg hlive hamong, Elsewhere.insert _ _ _⟩
  · rw [Bool.not_eq_true] at hadmitted
    rw [hadmitted, Bool.not_false, if_pos rfl]
    dsimp only
    rw [hnone, isSome_none, Bool.and_false, if_neg (by decide)]
    rw [hnone]
    exact ⟨hfailed _, Elsewhere.refl _ _⟩

/-- The modes are those of the routes. -/
structure Keyed (s : Router) : Prop where
  modes : ∀ id, (s.modes.lookup id).isSome = (s.routes.lookup id).isSome
  startModes : ∀ id, (s.startModes.lookup id).isSome = (s.routes.lookup id).isSome

/-- The modes follow the routes, and the rest stays. -/
structure Settled (d : Dispatch) (s s' : Router) : Prop where
  modes : ∀ id, s'.modes.lookup id = if id = d.action.callId then
    (s'.routes.lookup id).map fun _ => d.mode else s.modes.lookup id
  startModes : ∀ id, s'.startModes.lookup id = if id = d.action.callId then
    (s'.routes.lookup id).bind fun _ =>
      if (s.routes.lookup id).isSome then s.startModes.lookup id else some d.mode
    else s.startModes.lookup id
  pending : s'.pending = s.pending
  admissions : s'.admissions = s.admissions
  revision : s'.revision = s.revision
  steps : s'.steps = s.steps

/-- Only the modes of the call of the action change. -/
theorem settled_settleModes (d : Dispatch) (s : Router) (routes : Routes) :
    Settled d s (settleModes d.action.callId d.mode s routes) := by
  unfold settleModes
  cases hroute : routes.lookup d.action.callId with
  | some route =>
    rw [isSome_some, if_pos rfl]
    refine ⟨fun id => ?_, fun id => ?_, rfl, rfl, rfl, rfl⟩
    · dsimp only
      split
      next h =>
        subst h
        rw [AList.lookup_insert, hroute, map_some]
      next h => exact AList.lookup_insert_ne h
    · dsimp only
      by_cases hid : id = d.action.callId
      · subst hid
        rw [if_pos rfl, hroute, bind_some]
        split
        next => rfl
        next => exact AList.lookup_insert ..
      · rw [if_neg hid]
        split
        next => rfl
        next => exact AList.lookup_insert_ne hid
  | none =>
    rw [isSome_none, if_neg (by decide)]
    refine ⟨fun id => ?_, fun id => ?_, rfl, rfl, rfl, rfl⟩
    · dsimp only
      split
      next h =>
        subst h
        rw [AList.lookup_erase, hroute, map_none]
      next h => exact AList.lookup_erase_ne h
    · dsimp only
      split
      next h =>
        subst h
        rw [AList.lookup_erase, hroute, bind_none]
      next h => exact AList.lookup_erase_ne h

variable {s : Router} {d : Dispatch}

/-- Nothing changes for a call that has no route. -/
theorem Keyed.settled_refl (h : Keyed s)
    (hnone : s.routes.lookup d.action.callId = none) : Settled d s s := by
  have hmode := h.modes d.action.callId
  have hstart := h.startModes d.action.callId
  rw [hnone, isSome_none, isSome_eq_false_iff, isNone_iff_eq_none] at hmode
  rw [hnone, isSome_none, isSome_eq_false_iff, isNone_iff_eq_none] at hstart
  refine ⟨fun id => ?_, fun id => ?_, rfl, rfl, rfl, rfl⟩
  · split
    next h => rw [h, hmode, hnone, map_none]
    next => rfl
  · split
    next h => rw [h, hstart, hnone, bind_none]
    next => rfl

theorem settleModes_routes (mode : ℕ) (s : Router) (routes : Routes) :
    (settleModes callId mode s routes).routes = routes := by
  unfold settleModes
  split <;> rfl

/-- What an action that goes on does. -/
structure Dispatched (env : Env) (d : Dispatch) (s : Router) (outputs : List Output)
    (s' : Router) : Prop where
  effect : Effect env d.onlyWifi d.action (s.routes.lookup d.action.callId) outputs
    (s'.routes.lookup d.action.callId)
  elsewhere : Elsewhere d.action.callId s.routes s'.routes
  settled : Settled d s s'

/-- What goes on has the effect of its kind, on its own call. -/
theorem dispatchCostChecked_effect (hkeyed : Keyed s)
    (hstart : d.action.isStart = true → s.routes.lookup d.action.callId = none) :
    Dispatched env d s (env.dispatchCostChecked d s).1 (env.dispatchCostChecked d s).2 := by
  obtain ⟨action, mode, onlyWifi⟩ := d
  cases action with
  | command command =>
    obtain ⟨heffect, helsewhere⟩ := routeCommand_effect env onlyWifi s.routes command
    unfold dispatchCostChecked
    refine ⟨?_, ?_, settled_settleModes ⟨.command command, mode, onlyWifi⟩ s _⟩
    · rw [settleModes_routes]
      exact heffect
    · rw [settleModes_routes]
      exact helsewhere
  | event kind event =>
    obtain ⟨heffect, helsewhere⟩ := routeEvent_effect env onlyWifi s.routes kind event
    unfold dispatchCostChecked
    refine ⟨?_, ?_, settled_settleModes ⟨.event kind event, mode, onlyWifi⟩ s _⟩
    · rw [settleModes_routes]
      exact heffect
    · rw [settleModes_routes]
      exact helsewhere
  | request plan response =>
    have hnone : s.routes.lookup plan.callId = none := hstart rfl
    unfold dispatchCostChecked
    dsimp only
    split
    next =>
      exact ⟨.abandoned plan response _, Elsewhere.refl _ _, hkeyed.settled_refl hnone⟩
    next =>
      obtain ⟨heffect, helsewhere⟩ :=
        dispatchRequest_effect env onlyWifi plan response mode hnone
      refine ⟨?_, ?_, settled_settleModes ⟨.request plan response, mode, onlyWifi⟩ s _⟩
      · dsimp only [CostCheckedAction.callId]
        rw [settleModes_routes, hnone]
        exact heffect
      · dsimp only [CostCheckedAction.callId]
        rw [settleModes_routes]
        exact helsewhere

end Effects

end Env

end SimMaster.Trunk
