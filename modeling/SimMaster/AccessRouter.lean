import SimMaster.Clock
import SimMaster.HashMap
import SimMaster.Machine
import SimMaster.TrunkOperator
import SimMaster.VoiceRoute

/-!
# The voice access router

One task owns the calls of a line. It takes commands of the trunk, requests of the API and events
of the access legs, each when it comes, and pins a call to one leg. Where a policy asks for it, an
action waits until the home network has been observed; the observations run beside the task.

A step takes in one of these and what is outside at that moment: the policy, the links of the legs,
the mode of the cost gate and the clock. What the router publishes about its own readiness is left
out.
-/

namespace SimMaster.Trunk

open Rust

/-! ## Outside -/

/-- `OperatorLink`: what the router reads of the link of a leg. -/
structure OperatorLink where
  ready : Bool
  /-- The receivers of its commands. -/
  receivers : ℕ
  accessGeneration : ℕ
  videoEnabled : Bool
  deriving DecidableEq

def OperatorLink.hasCommandConsumer (link : OperatorLink) : Bool := 0 < link.receivers

def OperatorLink.isAvailable (link : OperatorLink) : Bool := link.ready && link.hasCommandConsumer

structure AccessBackend where
  kind : AccessPathKind
  link : OperatorLink
  deriving DecidableEq

/-- What is outside when the router takes a step. -/
structure Env where
  now : Instant
  policy : VoicePathPolicy
  backends : List AccessBackend
  /-- The mode of the `VoiceCostGate`: 0 is unrestricted, 1 strict VoWiFi, 2 VoWiFi or a verified
  home network. -/
  gateMode : ℕ
  /-- What an admission check answers. -/
  admits : ℕ → Bool := fun _ => true
  /-- The waiter for a response has gone. -/
  closed : ℕ → Bool := fun _ => false
  /-- The waiter for a response goes while the response is delivered. -/
  lost : ℕ → Bool := fun _ => false
  /-- The order in which a map is gone through. -/
  order : List Str → List Str := id
  order_perm : ∀ keys, (order keys).Perm keys := by exact fun keys => List.Perm.refl keys

/-- `VoiceCostGate::combined_mode`: the stricter of two modes. -/
def combinedMode (current initial : ℕ) : ℕ :=
  if initial = 1 ∨ current = 1 then 1 else if initial = 2 ∨ current = 2 then 2 else 0

/-! ## Calls -/

/-- A call that was prepared for each leg that can carry it. -/
structure VoiceCallPlan where
  callId : Str
  caller : Str
  callee : Str
  trunkLocalIp : IpAddr
  offers : List (AccessPathKind × MediaOffer)
  /-- The check of the caller, which is asked again before each attempt. -/
  admission : Option ℕ
  initialCostMode : ℕ
  deriving DecidableEq

def VoiceCallPlan.admissionCurrent (plan : VoiceCallPlan) (env : Env) : Bool :=
  plan.admission.all env.admits

def VoiceCallPlan.commandFor (plan : VoiceCallPlan) (access : AccessPathKind) :
    Option OperatorCommand :=
  (plan.offers.find? (·.1 == access)).map fun offer =>
    .startCall plan.callId plan.caller plan.callee plan.trunkLocalIp offer.2

structure CallRoute where
  owner : AccessPathKind
  accessGeneration : ℕ
  remaining : List AccessPathKind
  start : Option OperatorCommand
  /-- Only for a call of the API, whose offer varies by access. -/
  startPlan : Option VoiceCallPlan
  deriving DecidableEq

abbrev Routes : Type := HashMap Str CallRoute

structure RoutedVoiceCall where
  callId : Str
  access : AccessPathKind
  deriving DecidableEq

inductive VoiceCallStartError where
  | routerUnavailable
  | routeTimedOut
  | callAlreadyExists
  | wifiOnlyRequired
  | registeredHomeRequired
  | noEligibleImsAccess
  deriving DecidableEq

/-- What a step lets out. -/
inductive Output where
  /-- A command that a leg has taken. -/
  | sent (kind : AccessPathKind) (command : OperatorCommand)
  /-- `RejectCall` with 480 to a leg, for an incoming call that is not taken. -/
  | refused (kind : AccessPathKind) (callId : Str)
  /-- An event of the router to the trunk. -/
  | reported (event : OperatorEvent)
  /-- An event of a leg to the trunk. -/
  | forwarded (kind : AccessPathKind) (event : OperatorEvent)
  | responded (response : ℕ) (result : Except VoiceCallStartError RoutedVoiceCall)
  /-- A request is dropped with its response: the waiter reads `RouterUnavailable`. -/
  | dropped (response : ℕ)
  | located (response : ℕ) (owner : Option AccessPathKind)
  deriving DecidableEq

/-! ## Legs -/

namespace Env

variable (env : Env)

/-- The legs that can carry a call now. -/
def routePlan (videoRequired : Bool) : List AccessPathKind :=
  (planVoiceRoute env.policy (env.backends.map fun backend =>
    let available := backend.link.isAvailable && (!videoRequired || backend.link.videoEnabled)
    ⟨backend.kind, true, available, available⟩)).candidates

def routePlanForTrunk (videoRequired vowifiOnly : Bool) : List AccessPathKind :=
  if vowifiOnly then (env.routePlan videoRequired).filter (· == .vowifi)
  else env.routePlan videoRequired

def backend (kind : AccessPathKind) : Option AccessBackend := env.backends.find? (·.kind == kind)

/-- The leg takes a command. -/
def takes (kind : AccessPathKind) : Bool :=
  (env.backend kind).any (·.link.hasCommandConsumer)

def rejectIncomingCollision (kind : AccessPathKind) (callId : Str) : List Output :=
  if env.takes kind then [.refused kind callId] else []

/-- The leg is still the one that the call was given to. -/
def generationCurrent (route : CallRoute) : Bool :=
  (env.backend route.owner).any (·.link.accessGeneration == route.accessGeneration)

/-- The leg that has taken a start, and the candidates after it. -/
structure Leg where
  kind : AccessPathKind
  generation : ℕ
  command : OperatorCommand
  remaining : List AccessPathKind

/-- The first candidate that is eligible for its start and takes it. -/
def firstLeg (commandFor : AccessPathKind → Option OperatorCommand)
    (eligible : AccessPathKind → OperatorCommand → Bool) : List AccessPathKind → Option Leg
  | [] => none
  | kind :: remaining =>
    match commandFor kind, env.backend kind with
    | some command, some selected =>
      if eligible kind command && selected.link.hasCommandConsumer then
        some ⟨kind, selected.link.accessGeneration, command, remaining⟩
      else firstLeg commandFor eligible remaining
    | _, _ => firstLeg commandFor eligible remaining

/-- A start under the cost policy. -/
def startEligible (vowifiOnly : Bool) (kind : AccessPathKind) (_ : OperatorCommand) : Bool :=
  !vowifiOnly || kind == .vowifi

/-- The candidates after the first attempt are only a snapshot: the policy is asked again. -/
def failoverEligible (vowifiOnly : Bool) (kind : AccessPathKind) (start : OperatorCommand) : Bool :=
  (env.routePlanForTrunk start.asksVideo vowifiOnly).contains kind

/-! ## Routing -/

def routeCallPlan (plan : VoiceCallPlan) (vowifiOnly : Bool) (routes : Routes) :
    Except VoiceCallStartError RoutedVoiceCall × List Output × Routes :=
  if !plan.admissionCurrent env then (.error .routerUnavailable, [], routes)
  else match env.firstLeg plan.commandFor (startEligible vowifiOnly) (env.routePlan false) with
    | none => (.error .noEligibleImsAccess, [], routes)
    | some leg =>
      (.ok ⟨plan.callId, leg.kind⟩,
        [.sent leg.kind leg.command,
          .reported (.started plan.callId plan.caller plan.callee)],
        routes.insert plan.callId {
          owner := leg.kind
          remaining := leg.remaining
          start := some leg.command
          startPlan := some plan
          accessGeneration := leg.generation })

/-- The start of the trunk, with the caller and the callee that it names. -/
def routeStart (command : OperatorCommand) (caller callee : Str) (vowifiOnly : Bool)
    (routes : Routes) : List Output × Routes :=
  let callId := command.callId
  match env.firstLeg (fun _ => some command) (startEligible vowifiOnly)
    (env.routePlan command.asksVideo) with
  | none =>
    ([.reported (.started callId caller callee), .reported (.unavailable callId)], routes)
  | some leg =>
    ([.reported (.started callId caller callee), .sent leg.kind command],
      routes.insert callId {
        owner := leg.kind
        remaining := leg.remaining
        start := some command
        startPlan := none
        accessGeneration := leg.generation })

/-- A command for a call that has its owner. -/
def routeOwned (command : OperatorCommand) (route : CallRoute) : List Output :=
  let callId := command.callId
  let outputs : List Output :=
    if env.takes route.owner then [.sent route.owner command]
    else if command.isTransfer then [.reported (.transferResponse callId 503)]
    else [.reported (.unavailable callId)]
  if command.isTerminal then outputs ++ [Output.reported (.observation callId .localCancelled)]
  else outputs

/-- Any command but a start. A call that came in before the cost policy changed is not accepted on
another leg than VoWiFi; the control of a call that is established stays with its owner. -/
def routeControl (command : OperatorCommand) (vowifiOnly : Bool) (routes : Routes) :
    List Output × Routes :=
  let callId := command.callId
  match routes.lookup callId with
  | none =>
    (if command.isTransfer then [.reported (.transferResponse callId 481)]
      else [.reported (.unavailable callId)], routes)
  | some route =>
    if !env.generationCurrent route then
      ([.reported (.unavailable callId)], routes.erase callId)
    else if vowifiOnly && route.owner ≠ .vowifi && command.isAccept then
      (env.rejectIncomingCollision route.owner callId ++ [Output.reported (.unavailable callId)],
        routes.erase callId)
    else if vowifiOnly && route.owner ≠ .vowifi && command.isTransfer then
      ([.reported (.transferResponse callId 403)], routes)
    else
      (env.routeOwned command route,
        if command.isTerminal then routes.erase callId else routes)

def routeCommand (command : OperatorCommand) (vowifiOnly : Bool) (routes : Routes) :
    List Output × Routes :=
  match command with
  | .startCall _ caller callee _ _ => env.routeStart command caller callee vowifiOnly routes
  | _ => env.routeControl command vowifiOnly routes

/-- The leg that a call fails over to. -/
def nextLeg (route : CallRoute) (vowifiOnly : Bool) : Option Leg :=
  let remaining := if route.startPlan.any fun plan => !plan.admissionCurrent env then []
    else route.remaining
  env.firstLeg (fun next => (route.startPlan.bind (·.commandFor next)).or route.start)
    (env.failoverEligible vowifiOnly) remaining

def routeIncoming (kind : AccessPathKind) (event : OperatorEvent) (vowifiOnly : Bool)
    (routes : Routes) : List Output × Routes :=
  let callId := event.callId
  match routes.lookup callId with
  | some route =>
    (if route.owner ≠ kind then env.rejectIncomingCollision kind callId else [], routes)
  | none =>
    if !(env.routePlanForTrunk false vowifiOnly).contains kind then
      (env.rejectIncomingCollision kind callId, routes)
    else
      ([.forwarded kind event], routes.insert callId {
        owner := kind
        remaining := []
        start := none
        startPlan := none
        accessGeneration := ((env.backend kind).map (·.link.accessGeneration)).getD 0 })

/-- An event of the owner that does not lead to another leg. -/
def routeForwarded (kind : AccessPathKind) (event : OperatorEvent) (route : CallRoute)
    (routes : Routes) : List Output × Routes :=
  ([.forwarded kind event],
    if event.isTerminal then routes.erase event.callId
    else if event.isAnswer then
      routes.insert event.callId { route with start := none, startPlan := none, remaining := [] }
    else routes)

/-- An event of the owner of the call. -/
def routeOfOwner (kind : AccessPathKind) (event : OperatorEvent) (vowifiOnly : Bool)
    (route : CallRoute) (routes : Routes) : List Output × Routes :=
  let callId := event.callId
  if !env.generationCurrent route && !(event.isUnavailable && route.start.isSome) then
    ([.reported (.unavailable callId)], routes.erase callId)
  else match if event.isUnavailable then env.nextLeg route vowifiOnly else none with
    | some leg =>
      ([.sent leg.kind leg.command, .reported (.attemptChanged callId)],
        routes.insert callId { route with
          owner := leg.kind
          remaining := leg.remaining
          accessGeneration := leg.generation
          start := some leg.command })
    | none => routeForwarded kind event route routes

def routeEvent (kind : AccessPathKind) (event : OperatorEvent) (vowifiOnly : Bool)
    (routes : Routes) : List Output × Routes :=
  if event.isIncoming then env.routeIncoming kind event vowifiOnly routes
  else match routes.lookup event.callId with
    | none => ([], routes)
    | some route =>
      if route.owner ≠ kind then ([], routes)
      else env.routeOfOwner kind event vowifiOnly route routes

end Env

/-! ## Actions -/

inductive CostCheckedAction where
  | command (command : OperatorCommand)
  | request (plan : VoiceCallPlan) (response : ℕ)
  | event (kind : AccessPathKind) (event : OperatorEvent)
  deriving DecidableEq

namespace CostCheckedAction

def callId : CostCheckedAction → Str
  | .command c => c.callId
  | .request plan _ => plan.callId
  | .event _ e => e.callId

def needsAdmission : CostCheckedAction → Bool
  | .request .. => true
  | .command c => c.isStart || c.isAccept || c.isTransfer
  | .event _ e => e.isIncoming || e.isUnavailable

/-- `matches!(event, Answered { .. })`. -/
def isAnswered : OperatorEvent → Bool
  | .answered .. => true
  | _ => false

def cancelsPending : CostCheckedAction → Bool
  | .command c => c.isTerminal
  | .event _ e => isAnswered e || (e.isTerminal && !e.isUnavailable)
  | .request .. => false

/-- An event that says that the leg has lost the call. -/
def isUnavailable : CostCheckedAction → Bool
  | .event _ e => e.isUnavailable
  | _ => false

/-- A request or a command that starts a call. -/
def isStart : CostCheckedAction → Bool
  | .request .. => true
  | .command c => c.isStart
  | .event .. => false

/-- A request that is dropped lets its waiter go. -/
def drop : CostCheckedAction → List Output
  | .request _ response => [.dropped response]
  | _ => []

end CostCheckedAction

/-- An action that waits for its observation. -/
structure PendingAdmission where
  ticket : ℕ
  initial : ℕ
  owner : Option AccessPathKind
  action : CostCheckedAction
  /-- The number of the step that has received the action; not part of the program. -/
  receivedAt : ℕ
  deriving DecidableEq

/-- An observation that runs, or has come to its end and waits to be joined. -/
structure Admission where
  callId : Str
  ticket : ℕ
  /-- The number of the step that has started it; not part of the program. -/
  startedAt : ℕ
  deriving DecidableEq

/-- The state of the task. -/
structure Router where
  routes : Routes := ∅
  modes : HashMap Str ℕ := ∅
  pending : HashMap Str PendingAdmission := ∅
  admissions : List Admission := []
  revision : ℕ := 0
  /-- The modes with which the routes were made; not part of the program. -/
  startModes : HashMap Str ℕ := ∅
  /-- The number of the steps so far; not part of the program. -/
  steps : ℕ := 0

/-- What the task takes in. -/
inductive Input where
  | command (command : OperatorCommand)
  /-- Commands were lost. -/
  | commandsLagged
  | startCall (plan : VoiceCallPlan) (response : ℕ)
  | callAccess (callId : Str) (response : ℕ)
  | event (kind : AccessPathKind) (event : OperatorEvent)
  /-- The observation at this place is joined: it was aborted, or it has seen the home network or
  not, at this instant. -/
  | joined (index : ℕ) (result : Option (Bool × Instant))
  | tick
  deriving DecidableEq

/-- An action that goes on now. -/
structure Dispatch where
  action : CostCheckedAction
  mode : ℕ
  onlyWifi : Bool
  deriving DecidableEq

namespace Env

variable (env : Env)

def needsHomeObservation (action : CostCheckedAction) (routes : Routes) : Bool :=
  action.needsAdmission &&
    let first := match action with
      | .request plan _ => (env.routePlan false).find? fun kind => (plan.commandFor kind).isSome
      | .command command =>
        if command.isStart then (env.routePlan command.asksVideo).head?
        else (routes.lookup command.callId).map CallRoute.owner
      | .event kind event =>
        if event.isIncoming then some kind
        else (routes.lookup event.callId).bind (·.remaining.head?)
    first.any fun (kind : AccessPathKind) => kind ≠ .vowifi

/-- The mode of a call stays as long as its route. -/
def settleModes (callId : Str) (mode : ℕ) (s : Router) (routes : Routes) : Router :=
  if (routes.lookup callId).isSome then
    { s with
      routes
      modes := s.modes.insert callId mode
      startModes := if (s.routes.lookup callId).isSome then s.startModes
        else s.startModes.insert callId mode }
  else
    { s with
      routes
      modes := s.modes.erase callId
      startModes := s.startModes.erase callId }

/-- What is not admitted is rejected in the way of its kind. -/
def rejection (action : CostCheckedAction) (routes : Routes) : List Output × Routes :=
  let callId := action.callId
  let ended : List Output × Routes := ([.reported (.unavailable callId)], routes.erase callId)
  match action with
  | .request _ response => ([.responded response (.error .routerUnavailable)], routes)
  | .event kind event =>
    if event.isIncoming then (env.rejectIncomingCollision kind callId, routes) else ended
  | .command command =>
    if command.isTransfer then ([.reported (.transferResponse callId 503)], routes)
    else if command.isAccept then
      (((routes.lookup callId).map fun route =>
        env.rejectIncomingCollision route.owner callId).getD [] ++ ended.1, ended.2)
    else ended

def rejectCostChecked (action : CostCheckedAction) (s : Router) : List Output × Router :=
  let callId := action.callId
  let (outputs, routes) := env.rejection action s.routes
  (outputs, if (routes.lookup callId).isSome then { s with routes }
    else { s with
      routes
      modes := s.modes.erase callId
      startModes := s.startModes.erase callId })

/-- The error of a start that the policy has kept from every leg. -/
def startError (initialMode : ℕ) (onlyWifi : Bool) (error : VoiceCallStartError) :
    VoiceCallStartError :=
  if error = .noEligibleImsAccess ∧ onlyWifi = true then
    match initialMode with
    | 1 => .wifiOnlyRequired
    | 2 => .registeredHomeRequired
    | _ => error
  else error

/-- The routing of a request; a waiter that has gone when the response is delivered cancels it. -/
def dispatchRequest (plan : VoiceCallPlan) (response : ℕ) (initialMode : ℕ) (onlyWifi : Bool)
    (routes : Routes) : List Output × Routes :=
  let (result, outputs, routes) := env.routeCallPlan plan onlyWifi routes
  let outputs := outputs ++
    [.responded response (result.mapError (startError initialMode onlyWifi))]
  if env.lost response && (routes.lookup plan.callId).isSome then
    let (more, routes) := env.routeCommand (.cancelCall plan.callId) onlyWifi routes
    (outputs ++ more, routes)
  else (outputs, routes)

def dispatchCostChecked (d : Dispatch) (s : Router) : List Output × Router :=
  match d.action with
  | .command command =>
    let (outputs, routes) := env.routeCommand command d.onlyWifi s.routes
    (outputs, settleModes command.callId d.mode s routes)
  | .event kind event =>
    let (outputs, routes) := env.routeEvent kind event d.onlyWifi s.routes
    (outputs, settleModes event.callId d.mode s routes)
  | .request plan response =>
    if env.closed response then ([.dropped response], s)
    else
      let (outputs, routes) := env.dispatchRequest plan response d.mode d.onlyWifi s.routes
      (outputs, settleModes plan.callId d.mode s routes)

/-! ## The task -/

/-- The pending actions are rejected, in the order of the map. -/
def rejectPending (s : Router) : List Output × Router :=
  ((env.order s.pending.keys).filterMap (s.pending.lookup ·)).foldl (fun (outputs, s) item =>
    let (more, s) := env.rejectCostChecked item.action s
    (outputs ++ more, s)) ([], { s with pending := ∅ })

/-- The evidence for every call of the leg is lost. -/
def evidenceLost (kind : AccessPathKind) (routes : Routes) : List Output :=
  ((env.order routes.keys).filter fun callId =>
    (routes.lookup callId).any fun route => route.owner == kind).map fun callId =>
      .reported (.observation callId .evidenceLost)

/-- A pending action is given up. -/
def dropPending (callId : Str) (s : Router) : List Output × Router :=
  (((s.pending.lookup callId).map (·.action.drop)).getD [],
    { s with pending := s.pending.erase callId })

/-- An action that asks for an admission while one is pending for its call. -/
def heldAction (action : CostCheckedAction) (initial : ℕ) (s : Router) :
    List Output × Router × Option Dispatch :=
  let callId := action.callId
  match action with
  | .request _ response => ([.responded response (.error .callAlreadyExists)], s, none)
  | .event _ event =>
    if event.isUnavailable then
      -- the access is lost while the call waits: the action that waits is stale
      let (outputs, s) := dropPending callId s
      let routes := match s.routes.lookup callId with
        | some route => s.routes.insert callId { route with remaining := [] }
        | none => s.routes
      (outputs, { s with routes }, some ⟨action, initial, true⟩)
    else ([], s, none)
  | .command command =>
    (if command.isTransfer then [.reported (.transferResponse callId 491)] else [], s, none)

/-- The owner of a call, or of the action that is pending for it. -/
def ownerOf (callId : Str) (s : Router) : Option AccessPathKind :=
  ((s.routes.lookup callId).map (·.owner)).or ((s.pending.lookup callId).bind (·.owner))

def actionOwner (action : CostCheckedAction) (routes : Routes) : Option AccessPathKind :=
  ((routes.lookup action.callId).map (·.owner)).or (match action with
    | .event kind event => if event.isIncoming then some kind else none
    | _ => none)

/-- An observation is started, and the action waits for it. -/
def spawnAdmission (action : CostCheckedAction) (initial : ℕ) (s : Router) : Router :=
  let ticket := (s.revision + 1) % 2 ^ 64
  { s with
    revision := ticket
    admissions := s.admissions ++ [⟨action.callId, ticket, s.steps⟩]
    pending := s.pending.insert action.callId
      ⟨ticket, initial, actionOwner action s.routes, action, s.steps⟩ }

/-- An action for whose call no admission is pending. -/
def freshAction (action : CostCheckedAction) (initial : ℕ) (s : Router) :
    List Output × Router × Option Dispatch :=
  if action.isStart && (s.routes.lookup action.callId).isSome then
    (match action with
      | .request _ response => [.responded response (.error .callAlreadyExists)]
      | _ => [], s, none)
  else if initial = 2 ∧ env.needsHomeObservation action s.routes = true then
    if 16 ≤ s.pending.len then
      let (outputs, s) := env.rejectCostChecked action s
      (outputs, s, none)
    else ([], spawnAdmission action initial s, none)
  else ([], s, some ⟨action, initial, initial ≠ 0⟩)

/-- The mode that an action asks for. -/
def requestedMode (action : CostCheckedAction) (s : Router) : ℕ :=
  match action with
  | .request plan _ => plan.initialCostMode
  | _ => (s.modes.lookup action.callId).getD 0

/-- An action of the owner of its call. -/
def ownedAction (action : CostCheckedAction) (s : Router) :
    List Output × Router × Option Dispatch :=
  let callId := action.callId
  let (dropped, s) := if action.cancelsPending then dropPending callId s else ([], s)
  let initial := combinedMode env.gateMode (requestedMode action s)
  let (outputs, s, dispatch) :=
    if (s.pending.lookup callId).isSome && action.needsAdmission then heldAction action initial s
    else env.freshAction action initial s
  (dropped ++ outputs, s, dispatch)

/-- An event of a leg. One that has lost its call, or that never had it, cannot cancel the call of
the owner. -/
def receiveEvent (kind : AccessPathKind) (event : OperatorEvent) (s : Router) :
    List Output × Router × Option Dispatch :=
  let callId := event.callId
  if event = .observation [] .evidenceLost then (env.evidenceLost kind s.routes, s, none)
  else if (ownerOf callId s).any (· ≠ kind) then
    (if event.isIncoming then env.rejectIncomingCollision kind callId else [], s, none)
  else
    let changed : List Output := if event.isUnavailable && (ownerOf callId s).isSome then
      [.reported (.attemptChanged callId)] else []
    let (outputs, s, dispatch) := env.ownedAction (.event kind event) s
    (changed ++ outputs, s, dispatch)

/-- The observation is joined; what has waited for it goes on. -/
def receiveJoined (index : ℕ) (result : Option (Bool × Instant)) (s : Router) :
    List Output × Router × Option Dispatch :=
  match s.admissions[index]? with
  | none => ([], s, none)
  | some admission =>
    let s := { s with admissions := s.admissions.eraseIdx index }
    match result, s.pending.lookup admission.callId with
    | some (home, checkedAt), some item =>
      if item.ticket = admission.ticket then
        let mode := combinedMode env.gateMode item.initial
        let fresh := env.now.saturatingDurationSince checkedAt < Duration.fromMillis 250
        ([], { s with pending := s.pending.erase admission.callId },
          some ⟨item.action, mode, mode = 1 || (mode = 2 && !(home && fresh))⟩)
      else ([], s, none)
    | _, _ => ([], s, none)

/-- What is taken in, up to the action that goes on. -/
def receive (input : Input) (s : Router) : List Output × Router × Option Dispatch :=
  match input with
  | .command command => env.ownedAction (.command command) s
  | .commandsLagged =>
    let (outputs, s) := env.rejectPending s
    (outputs, s, none)
  | .startCall plan response =>
    if env.closed response then ([.dropped response], s, none)
    else env.ownedAction (.request plan response) s
  | .callAccess callId response =>
    ([.located response ((s.routes.lookup callId).map (·.owner))], s, none)
  | .event kind event => env.receiveEvent kind event s
  | .joined index result => env.receiveJoined index result s
  | .tick => ([], s, none)

end Env

namespace Router

/-- One turn of the task. -/
def step (s : Router) (x : Env × Input) : List Output × Router :=
  let (outputs, s, dispatch) := x.1.receive x.2 s
  let (more, s) := match dispatch with
    | some d => x.1.dispatchCostChecked d s
    | none => ([], s)
  (outputs ++ more, { s with steps := s.steps + 1 })

/-- The task after these turns. -/
def after (run : List (Env × Input)) : Router := Machine.run step {} run

end Router

end SimMaster.Trunk
