import SimMaster.AccessOwnership

/-!
# What the legs hear and say

The ways in which a command comes to a leg and an event of a leg to the trunk, and the action that
each of them comes of.
-/

namespace SimMaster.Trunk

open Rust List

/-- A message between a leg and the trunk. -/
def Output.Passes : Output → Prop
  | .sent .. | .forwarded .. => True
  | _ => False

def Output.isStart : Output → Bool
  | .sent _ command => command.isStart
  | _ => false

namespace Env

/-! ## Commands -/

/-- The ways a command comes to a leg. -/
inductive Sends (env : Env) (onlyWifi : Bool) (action : CostCheckedAction)
    (before : Option CallRoute) (outputs : List Output) (after : Option CallRoute) :
    AccessPathKind → OperatorCommand → Prop where
  | first (leg : Leg) (start : action.isStart = true) (live : leg.Live env)
      (command : leg.command.callId = action.callId ∧ leg.command.isStart = true)
      (eligible : startEligible onlyWifi leg.kind leg.command = true)
      (owner : ∀ route, after = some route → route.owner = leg.kind) :
    Sends env onlyWifi action before outputs after leg.kind leg.command
  | next (event route) (leg : Leg) (remaining) (action_eq : action = .event route.owner event)
      (unavailable : event.isUnavailable = true) (before_eq : before = some route)
      (live : leg.Live env) (sub : remaining = [] ∨ remaining = route.remaining)
      (among : leg.Among
        (fun next => (route.startPlan.bind (·.commandFor next)).or route.start)
        (env.failoverEligible onlyWifi) remaining)
      (owner : ∀ route', after = some route' → route'.owner = leg.kind) :
    Sends env onlyWifi action before outputs after leg.kind leg.command
  | withdrawn (plan response) (leg : Leg) (action_eq : action = .request plan response)
      (live : leg.Live env)
      (command : leg.command.callId = plan.callId ∧ leg.command.isStart = true)
      (start : .sent leg.kind leg.command ∈ outputs) :
    Sends env onlyWifi action before outputs after leg.kind (.cancelCall plan.callId)
  | owner (command route) (action_eq : action = .command command)
      (start : command.isStart = false) (before_eq : before = some route)
      (current : env.generationCurrent route = true)
      (accepts : onlyWifi = true → route.owner ≠ .vowifi → command.isAccept = false) :
    Sends env onlyWifi action before outputs after route.owner command

variable {env : Env} {command : OperatorCommand}

theorem sent_not_mem_refusals {kind kind' : AccessPathKind}
    {callId : Str} (h : .sent kind command ∈ env.rejectIncomingCollision kind' callId) : False := by
  cases refusals_of_reject kind' callId _ h

variable {command command' : OperatorCommand}

theorem sent_not_mem_undelivered {kind : AccessPathKind}
    (h : .sent kind command ∈ undelivered command') : False := by
  unfold undelivered at h
  split at h
  next => cases mem_singleton.mp h
  next => cases mem_singleton.mp h

theorem sent_not_mem_cancelled {kind : AccessPathKind}
    (h : .sent kind command ∈ (if command'.isTerminal then
      [Output.reported (.observation command'.callId .localCancelled)] else [])) : False := by
  split at h
  next => cases mem_singleton.mp h
  next => cases h

variable {action : CostCheckedAction} {outputs : List Output} {onlyWifi : Bool}

theorem Effect.sends {before after : Option CallRoute}
    (h : Effect env onlyWifi action before outputs after) {kind : AccessPathKind}
    (hsent : .sent kind command ∈ outputs) :
    Sends env onlyWifi action before outputs after kind command := by
  cases h with
  | abandoned | notPlanned | notStarted | outdated | forbidden | incoming | lost | forwarded =>
    simp at hsent
  | unrouted =>
    split at hsent
    next => cases mem_singleton.mp hsent
    next => cases mem_singleton.mp hsent
  | ignored kind' event route outputs refusals => cases (refusals _ hsent).1
  | notAccepted command' route =>
    rcases mem_append.mp hsent with h | h
    · cases sent_not_mem_refusals h
    · cases mem_singleton.mp h
  | undelivered command' route =>
    rcases mem_append.mp hsent with h | h
    · cases sent_not_mem_undelivered h
    · cases sent_not_mem_cancelled h
  | planned plan response route leg live among =>
    obtain ⟨rfl, rfl⟩ : kind = leg.kind ∧ command = leg.command := by simpa using hsent
    refine .first leg rfl live (commandFor_eq_some among.command) among.eligible ?_
    rintro route' ⟨⟩
    rfl
  | withdrawn plan response route leg live among =>
    have hcases : (kind = leg.kind ∧ command = leg.command) ∨
        kind = leg.kind ∧ command = .cancelCall plan.callId := by simpa using hsent
    rcases hcases with ⟨rfl, rfl⟩ | ⟨rfl, rfl⟩
    · exact .first leg rfl live (commandFor_eq_some among.command) among.eligible
        fun _ h => by cases h
    · exact .withdrawn plan response leg rfl live (commandFor_eq_some among.command)
        (mem_cons_self ..)
  | started command' caller callee route start leg live among =>
    obtain ⟨rfl, rfl⟩ : kind = leg.kind ∧ command = command' := by simpa using hsent
    obtain rfl : command = leg.command := Option.some.inj among.command
    refine .first leg start live ⟨rfl, start⟩ among.eligible ?_
    rintro route' ⟨⟩
    rfl
  | delivered command' route start current takes accepts =>
    rcases mem_cons.mp hsent with h | h
    · obtain ⟨rfl, rfl⟩ : kind = route.owner ∧ command = command' := by simpa using h
      exact .owner command route rfl start rfl current accepts
    · cases sent_not_mem_cancelled h
  | failedOver event route unavailable leg live remaining sub among =>
    obtain ⟨rfl, rfl⟩ : kind = leg.kind ∧ command = leg.command := by simpa using hsent
    refine .next event route leg remaining rfl unavailable rfl live sub among ?_
    rintro route' ⟨⟩
    rfl

/-! ## Events -/

/-- The ways an event of a leg comes to the trunk. -/
inductive Forwards (action : CostCheckedAction) (before after : Option CallRoute)
    (kind : AccessPathKind) (event : OperatorEvent) : Prop where
  | owner (route) (action_eq : action = .event kind event) (before_eq : before = some route)
      (owner : route.owner = kind)
      (ended : event.isTerminal = true → after = none)
      (answered : event.isAnswer = true → ∀ route', after = some route' → route'.start = none) :
    Forwards action before after kind event
  | incoming (route') (action_eq : action = .event kind event) (incoming : event.isIncoming = true)
      (before_eq : before = none) (after_eq : after = some route') (owner : route'.owner = kind) :
    Forwards action before after kind event

variable {event : OperatorEvent}

theorem forwarded_not_mem_undelivered {kind : AccessPathKind}
    (h : .forwarded kind event ∈ undelivered command) : False := by
  unfold undelivered at h
  split at h
  next => cases mem_singleton.mp h
  next => cases mem_singleton.mp h

theorem forwarded_not_mem_cancelled {kind : AccessPathKind}
    (h : .forwarded kind event ∈ (if command.isTerminal then
      [Output.reported (.observation command.callId .localCancelled)] else [])) : False := by
  split at h
  next => cases mem_singleton.mp h
  next => cases h

theorem Effect.forwards {before after : Option CallRoute}
    (h : Effect env onlyWifi action before outputs after) {kind : AccessPathKind}
    (hforwarded : .forwarded kind event ∈ outputs) :
    Forwards action before after kind event := by
  cases h with
  | abandoned | notPlanned | notStarted | outdated | forbidden | lost | planned | withdrawn |
    started | failedOver => simp at hforwarded
  | unrouted =>
    split at hforwarded
    next => cases mem_singleton.mp hforwarded
    next => cases mem_singleton.mp hforwarded
  | ignored kind' event' route outputs refusals => cases (refusals _ hforwarded).1
  | notAccepted command route =>
    rcases mem_append.mp hforwarded with h | h
    · cases refusals_of_reject route.owner command.callId _ h
    · cases mem_singleton.mp h
  | undelivered command route =>
    rcases mem_append.mp hforwarded with h | h
    · cases forwarded_not_mem_undelivered h
    · cases forwarded_not_mem_cancelled h
  | delivered command route =>
    rcases mem_cons.mp hforwarded with h | h
    · cases h
    · cases forwarded_not_mem_cancelled h
  | incoming kind' event' incoming =>
    obtain ⟨rfl, rfl⟩ : kind = kind' ∧ event = event' := by simpa using hforwarded
    exact .incoming _ rfl incoming rfl rfl rfl
  | forwarded event' route incoming =>
    obtain ⟨rfl, rfl⟩ : kind = route.owner ∧ event = event' := by simpa using hforwarded
    refine .owner route rfl rfl rfl (fun hterminal => if_pos hterminal) ?_
    intro hanswer route' hroute'
    split at hroute'
    next => cases hroute'
    next =>
      obtain rfl := Option.some.inj hroute'
      rfl

/-- The leg of an event has the call, or offers it and gets it. -/
def Entitled (action : CostCheckedAction) (before after : Option CallRoute) : Prop :=
  ∀ kind event, action = .event kind event →
    (∃ route, before = some route ∧ route.owner = kind) ∨
    before = none ∧ event.isIncoming = true ∧ ∃ route', after = some route' ∧ route'.owner = kind

theorem Effect.changes {before after : Option CallRoute}
    (h : Effect env onlyWifi action before outputs after) :
    after = before ∨ Entitled action before after := by
  cases h with
  | abandoned | notPlanned | notStarted | forbidden | ignored | unrouted => exact .inl rfl
  | planned | withdrawn | started | outdated | notAccepted | delivered | undelivered =>
    exact .inr fun kind event h => by cases h
  | lost event route =>
    refine .inr ?_
    rintro kind event ⟨⟩
    exact .inl ⟨route, rfl, rfl⟩
  | failedOver event route =>
    refine .inr ?_
    rintro kind event ⟨⟩
    exact .inl ⟨route, rfl, rfl⟩
  | forwarded event route =>
    refine .inr ?_
    rintro kind event ⟨⟩
    exact .inl ⟨route, rfl, rfl⟩
  | incoming kind event incoming =>
    refine .inr ?_
    rintro kind event ⟨⟩
    exact .inr ⟨rfl, incoming, _, rfl, rfl⟩

/-! ## Where a message comes from -/

/-- The action is taken in now, or waits. -/
def Acts (s : Router) (input : Input) (action : CostCheckedAction) : Prop :=
  input.action = some action ∨ ∃ id item, s.pending.lookup id = some item ∧ item.action = action

variable {output : Output}

theorem idle_of_drop (h : output ∈ action.drop) : output.Idle := by
  cases action with
  | request plan response =>
    rw [mem_singleton.mp h]
    trivial
  | command | event => cases h

/-- What is said before an action goes on: there are a refusal, and the news that a call has no
route, which is true. -/
inductive Said (s : Router) (input : Input) (s₁ : Router) : Output → Prop where
  | idle (output : Output) (idle : output.Idle) : Said s input s₁ output
  | refused (action kind) (acts : Acts s input action) (refuses : action.Refuses s.routes kind) :
    Said s input s₁ (.refused kind action.callId)
  | unavailable (callId) (none : s₁.routes.lookup callId = none) :
    Said s input s₁ (.reported (.unavailable callId))

variable {input : Input} {s : Router}

theorem said_of_rejected (htaken : input.action = some action)
    (h : output ∈ (env.rejectCostChecked action s).1) :
    Said s input (env.rejectCostChecked action s).2 output := by
  have hrejected := env.rejectCostChecked_rejected action s
  rcases hrejected.outputs output h with hidle | ⟨kind, rfl, hrefuses, -⟩ | ⟨rfl, hnone⟩
  · exact .idle _ hidle
  · exact .refused action kind (.inl htaken) hrefuses
  · exact .unavailable _ hnone

theorem said_of_rejectPending (h : output ∈ (env.rejectPending s).1) :
    Said s .commandsLagged (env.rejectPending s).2 output := by
  rcases (env.rejectPending_rejected s).outputs output h with
    hidle | ⟨item, hitem, kind, rfl, hrefuses, -⟩ | ⟨callId, rfl, hnone⟩
  · exact .idle _ hidle
  · obtain ⟨id, hid⟩ := mem_waiting.mp hitem
    exact .refused item.action kind (.inr ⟨id, item, hid, rfl⟩) hrefuses
  · exact .unavailable callId hnone

variable {d : Option Dispatch} {s s₁ : Router}

theorem said_of_owned {s' : Router} (htaken : input.action = some action)
    (h : Owned env action s outputs s' d) (houtput : output ∈ outputs) :
    Said s input s' output := by
  cases h with
  | repeated _ busy idle => exact .idle _ (idle output houtput)
  | stale => exact .idle _ (idle_of_drop houtput)
  | full => exact said_of_rejected htaken houtput
  | waits => cases houtput
  | goesOn => cases houtput

theorem Said.of_cleared {s₀ : Router} (hcleared : Cleared action s outputs s₀)
    (h : Said s₀ input s₁ output) : Said s input s₁ output := by
  cases h with
  | idle _ hidle => exact .idle _ hidle
  | refused action' kind acts refuses =>
    refine .refused action' kind (acts.imp_right fun ⟨id, item, hitem, h⟩ =>
      ⟨id, item, pending_of_cleared hcleared hitem, h⟩) ?_
    rwa [routes_of_cleared hcleared] at refuses
  | unavailable callId hnone => exact .unavailable callId hnone

theorem said_of_turn (h : Turn env s input outputs s₁ d)
    (houtput : output ∈ outputs) : Said s input s₁ output := by
  cases h with
  | idle _ _ noAction idle => exact .idle _ (idle output houtput)
  | closed =>
    rw [mem_singleton.mp houtput]
    exact .idle _ trivial
  | lagged => exact said_of_rejectPending houtput
  | evidence kind =>
    obtain ⟨callId, -, rfl⟩ := mem_map.mp houtput
    exact .idle _ rfl
  | foreign kind event _ owner refusals =>
    obtain ⟨rfl, hincoming⟩ := refusals output houtput
    exact .refused (.event kind event) kind (.inl rfl) (.inl ⟨event, rfl, hincoming⟩)
  | unmatched => cases houtput
  | resumed => cases houtput
  | owned _ action changed outputs₀ s₀ outputs₁ _ _ taken owner change cleared owned =>
    rcases mem_append.mp houtput with hchanged | houtput
    · rw [change output hchanged]
      exact .idle _ rfl
    rcases mem_append.mp houtput with hdropped | houtput
    · refine .idle _ ?_
      cases cleared with
      | kept => cases hdropped
      | free => cases hdropped
      | cancelled => exact idle_of_drop hdropped
    · exact (said_of_owned taken owned houtput).of_cleared cleared

/-- The action that goes on in this step. -/
structure Went (s : Router) (x : Env × Input) (outputs : List Output) (s₁ : Router)
    (d : Dispatch) (more : List Output) (s' : Router) : Prop where
  turn : Turn x.1 s x.2 outputs s₁ (some d)
  inv : Inv s₁
  ready : Ready s₁ d
  dispatched : Dispatched x.1 d s₁ more s'
  goesOn : (x.1.receive x.2 s).2.2 = some d
  outputs_eq : (s.step x).1 = outputs ++ more
  state_eq : (s.step x).2 = counted s'

theorem not_passes_of_said (h : Said s input s₁ output) : ¬output.Passes := by
  cases h with
  | idle _ hidle => cases output <;> first | exact id | exact absurd hidle id
  | refused => exact id
  | unavailable => exact id

/-- A message between a leg and the trunk comes of an action that goes on. -/
theorem went_of_passes (h : Inv s) {x : Env × Input}
    (hmem : output ∈ (s.step x).1) (hpasses : output.Passes) :
    ∃ outputs s₁ d more s', Went s x outputs s₁ d more s' ∧ output ∈ more := by
  have hstepped := step_stepped h x
  generalize hs : s.step x = stepped at hstepped hmem
  obtain ⟨outputs', s'⟩ := stepped
  cases hstepped with
  | rested outputs s₁ turn => exact absurd hpasses (not_passes_of_said (said_of_turn turn hmem))
  | went outputs s₁ d more s₂ turn inv ready dispatched goesOn =>
    refine ⟨outputs, s₁, d, more, s₂,
      ⟨turn, inv, ready, dispatched, goesOn, by rw [hs]; rfl, by rw [hs]; rfl⟩, ?_⟩
    rcases mem_append.mp hmem with hearly | hmore
    · exact absurd hpasses (not_passes_of_said (said_of_turn turn hearly))
    · exact hmore

namespace Went

variable {s s₁ s' : Router} {x : Env × Input} {outputs more : List Output} {d : Dispatch} {id : Str}

variable (h : Went s x outputs s₁ d more s')
include h

/-- The route that the action meets is the one of before the step, if with fewer candidates. -/
theorem before (hinv : Inv s) {route : CallRoute}
    (hroute : s₁.routes.lookup id = some route) : ∃ route₀, s.routes.lookup id = some route₀ ∧
      (route = route₀ ∨ route = { route₀ with remaining := [] }) :=
  (inv_turn hinv h.turn).2.1.routes id route hroute

theorem before_none (hnone : s₁.routes.lookup id = none) : s.routes.lookup id = none := by
  rcases routes_of_turn h.turn with hsame | ⟨-, hsame⟩
  · rwa [hsame] at hnone
  · rw [hsame, lookup_withoutRemaining] at hnone
    split at hnone
    next => rwa [Option.map_eq_none_iff] at hnone
    next => exact hnone

theorem before_eq (hother : d.action.isUnavailable = false) : s₁.routes = s.routes := by
  rcases routes_of_turn h.turn with hsame | ⟨hunavailable, -⟩
  · exact hsame
  · rw [hother] at hunavailable
    cases hunavailable

theorem acts (hinv : Inv s) : Acts s x.2 d.action :=
  (action_of_turn hinv h.turn).imp_right fun ⟨item, hitem, heq⟩ => ⟨_, item, hitem, heq⟩

end Went

end Env

end SimMaster.Trunk
