import SimMaster.AccessOneOwner

/-!
# How calls end

When the trunk hears that a call has ended, or a leg is told so, its route has gone. A start that is
accepted waits, goes to a leg, or is reported back. There are steps that leave a call behind
(`Slip`), and in the runs without them this holds.
-/

namespace SimMaster.Trunk

open Rust List

namespace Env

/-! ## Slips -/

/-- A command other than one that ends or transfers the call finds its owner without a receiver: the
trunk is told that the call is unavailable, and the route stays. -/
def Unreceived (env : Env) (onlyWifi : Bool) (action : CostCheckedAction)
    (before : Option CallRoute) : Prop :=
  ∃ command route, action = .command command ∧ before = some route ∧
    command.isStart = false ∧ command.isTerminal = false ∧ command.isTransfer = false ∧
    env.generationCurrent route = true ∧ env.takes route.owner = false ∧
    (onlyWifi = true → route.owner ≠ .vowifi → command.isAccept = false)

/-- A start of the trunk waits for this call. -/
def StartWaits (s : Router) (callId : Str) : Prop :=
  ∃ item command, s.pending.lookup callId = some item ∧ item.action = .command command ∧
    command.isStart = true

/-- The steps that leave a call behind. -/
inductive Slip (s : Router) (x : Env × Input) : Prop where
  | unreceived (d) (goesOn : (x.1.receive x.2 s).2.2 = some d)
      (unreceived : Unreceived x.1 d.onlyWifi d.action (s.routes.lookup d.action.callId))
  /-- An event that answers or ends a call takes away the start that waits under its identity. -/
  | dropped (kind event) (input_eq : x.2 = .event kind event)
      (waits : StartWaits s event.callId)
      (ends : CostCheckedAction.isAnswered event = true ∨ event.isTerminal = true)
  /-- A command for a call whose start waits is answered as if there were no call. -/
  | early (command) (input_eq : x.2 = .command command) (waits : StartWaits s command.callId)
      (goesOn : (CostCheckedAction.command command).needsAdmission = false)
      (stays : command.isTerminal = false)
  /-- An incoming call that is repeated while it has its route is refused to its owner. -/
  | lagged (id item kind event route) (input_eq : x.2 = .commandsLagged)
      (waits : s.pending.lookup id = some item) (action_eq : item.action = .event kind event)
      (incoming : event.isIncoming = true) (routed : s.routes.lookup id = some route)
      (takes : x.1.takes kind = true)
  | full (kind event route) (input_eq : x.2 = .event kind event)
      (incoming : event.isIncoming = true) (routed : s.routes.lookup event.callId = some route)
      (owner : route.owner = kind) (other : kind ≠ .vowifi)
      (free : s.pending.lookup event.callId = none) (many : 16 ≤ s.pending.len)
      (guarded : combinedMode x.1.gateMode ((s.modes.lookup event.callId).getD 0) = 2)
      (takes : x.1.takes kind = true)

/-! ## What a step says of its call -/

variable {env : Env} {s s₁ : Router} {input : Input} {outputs : List Output} {d : Dispatch}

/-- Before an action goes on, nobody hears that a call ends. -/
theorem idle_of_turn (h : Turn env s input outputs s₁ (some d)) :
    ∀ output ∈ outputs, output.Idle := by
  intro output houtput
  cases h with
  | resumed => cases houtput
  | owned _ action changed outputs₀ s₀ outputs₁ _ _ taken owner change cleared owned =>
    rcases mem_append.mp houtput with hchanged | houtput
    · rw [change output hchanged]
      rfl
    rcases mem_append.mp houtput with hdropped | houtput
    · cases cleared with
      | kept => cases hdropped
      | free => cases hdropped
      | cancelled => exact idle_of_drop hdropped
    · cases owned with
      | stale => exact idle_of_drop houtput
      | goesOn => cases houtput

/-- A report is about the call of the action, and one that ends the call is true. -/
structure Reports (action : CostCheckedAction) (before after : Option CallRoute)
    (event : OperatorEvent) : Prop where
  callId : event.callId = action.callId
  ended : event.isTerminal = true → after = none ∨ action.isStart = true ∧ after = before

variable {onlyWifi : Bool} {before after : Option CallRoute} {event : OperatorEvent}
  {action : CostCheckedAction}

theorem Effect.reports (h : Effect env onlyWifi action before outputs after)
    (hreceived : ¬Unreceived env onlyWifi action before)
    (hreported : .reported event ∈ outputs) : Reports action before after event := by
  have hquiet : ∀ {event' : OperatorEvent}, event'.callId = action.callId →
      event'.isTerminal = false → .reported event = Output.reported event' →
      Reports action before after event := by
    rintro event' hcallId hterminal ⟨⟩
    exact ⟨hcallId, fun h => by rw [hterminal] at h; cases h⟩
  have hgone : ∀ {event' : OperatorEvent}, event'.callId = action.callId → after = none →
      .reported event = Output.reported event' → Reports action before after event := by
    rintro event' hcallId hnone ⟨⟩
    exact ⟨hcallId, fun _ => .inl hnone⟩
  cases h with
  | abandoned | notPlanned | incoming | forwarded => simp at hreported
  | planned plan response route leg =>
    have heq : event = .started plan.callId plan.caller plan.callee := by simpa using hreported
    exact hquiet rfl rfl (congrArg Output.reported heq)
  | failedOver event' route =>
    obtain rfl : event = .attemptChanged event'.callId := by simpa using hreported
    exact ⟨rfl, fun h => by cases h⟩
  | withdrawn plan response route leg =>
    have hcases : event = .started plan.callId plan.caller plan.callee ∨
        event = .observation plan.callId .localCancelled := by simpa using hreported
    rcases hcases with heq | heq
    · exact hquiet rfl rfl (congrArg Output.reported heq)
    · exact hquiet rfl rfl (congrArg Output.reported heq)
  | notStarted command caller callee route start =>
    have hcases : event = .started command.callId caller callee ∨
        event = .unavailable command.callId := by simpa using hreported
    rcases hcases with rfl | rfl
    · exact hquiet rfl rfl rfl
    · exact ⟨rfl, fun _ => .inr ⟨start, rfl⟩⟩
  | started command caller callee route start leg =>
    have heq : event = .started command.callId caller callee := by simpa using hreported
    exact hquiet rfl rfl (congrArg Output.reported heq)
  | unrouted command =>
    split at hreported
    next => exact hquiet rfl rfl (mem_singleton.mp hreported)
    next => exact hgone rfl rfl (mem_singleton.mp hreported)
  | outdated => exact hgone rfl rfl (mem_singleton.mp hreported)
  | notAccepted command route =>
    rcases mem_append.mp hreported with h | h
    · cases refusals_of_reject route.owner command.callId _ h
    · exact hgone rfl rfl (mem_singleton.mp h)
  | forbidden => exact hquiet rfl rfl (mem_singleton.mp hreported)
  | delivered command route =>
    rcases mem_cons.mp hreported with h | h
    · cases h
    · split at h
      next => exact hquiet rfl rfl (mem_singleton.mp h)
      next => cases h
  | undelivered command route start current takes accepts =>
    rcases mem_append.mp hreported with h | h
    · unfold Env.undelivered at h
      split at h
      next => exact hquiet rfl rfl (mem_singleton.mp h)
      next htransfer =>
        refine hgone rfl ?_ (mem_singleton.mp h)
        cases hterminal : command.isTerminal with
        | true => rfl
        | false =>
          exact absurd ⟨command, route, rfl, rfl, start, hterminal, Bool.eq_false_iff.mpr htransfer,
            current, takes, accepts⟩ hreceived
    · split at h
      next => exact hquiet rfl rfl (mem_singleton.mp h)
      next => cases h
  | ignored kind event' route outputs refusals => cases (refusals _ hreported).1
  | lost event' =>
    obtain rfl : event = .unavailable event'.callId := by simpa using hreported
    exact ⟨rfl, fun _ => .inl rfl⟩

variable {kind : AccessPathKind} {command : OperatorCommand}

/-- A command that ends a call takes its route away. -/
theorem Effect.sentEnds
    (h : Effect env onlyWifi action before outputs after) (hsent : .sent kind command ∈ outputs)
    (hterminal : command.isTerminal = true)
    (hok : ∀ route, before = some route → RouteOk action.callId route) :
    command.callId = action.callId ∧ after = none := by
  have hstart : ∀ {command : OperatorCommand}, command.isTerminal = true →
      command.isStart = false := by
    intro command h
    cases command <;> first | rfl | cases h
  have hleg : ∀ {leg : Leg}, leg.command.isStart = true → command = leg.command → False := by
    rintro leg h rfl
    rw [hstart hterminal] at h
    cases h
  cases h with
  | abandoned | notPlanned | notStarted | outdated | forbidden | incoming | lost | forwarded =>
    simp at hsent
  | unrouted =>
    split at hsent
    next => cases mem_singleton.mp hsent
    next => cases mem_singleton.mp hsent
  | ignored kind' event route outputs refusals => cases (refusals _ hsent).1
  | notAccepted command' route =>
    rcases mem_append.mp hsent with h | h
    · cases sent_not_mem_refusals h
    · cases mem_singleton.mp h
  | undelivered command' route =>
    rcases mem_append.mp hsent with h | h
    · cases sent_not_mem_undelivered h
    · cases sent_not_mem_cancelled h
  | planned plan response route leg live among =>
    have heq : kind = leg.kind ∧ command = leg.command := by simpa using hsent
    exact absurd heq.2 (hleg (commandFor_eq_some among.command).2)
  | withdrawn plan response route leg live among =>
    have hcases : (kind = leg.kind ∧ command = leg.command) ∨
        kind = leg.kind ∧ command = .cancelCall plan.callId := by simpa using hsent
    rcases hcases with ⟨-, heq⟩ | ⟨-, rfl⟩
    · exact absurd heq (hleg (commandFor_eq_some among.command).2)
    · exact ⟨rfl, rfl⟩
  | started command' caller callee route start =>
    obtain ⟨-, rfl⟩ : kind = _ ∧ command = command' := by simpa using hsent
    rw [hstart hterminal] at start
    cases start
  | delivered command' route =>
    rcases mem_cons.mp hsent with h | h
    · obtain ⟨-, rfl⟩ : kind = route.owner ∧ command = command' := by simpa using h
      exact ⟨rfl, if_pos hterminal⟩
    · cases sent_not_mem_cancelled h
  | failedOver event route unavailable leg live remaining sub among =>
    have heq : kind = leg.kind ∧ command = leg.command := by simpa using hsent
    exact absurd heq.2 (hleg ((hok route rfl).of_among sub among).2.2.2.1)

variable {callId : Str}

/-! ## What is said is true -/

/-- The call has neither a route nor a mode. -/
def Over (run : List (Env × Input)) (callId : Str) : Prop :=
  (Router.after run).routes.lookup callId = none ∧ (Router.after run).modes.lookup callId = none

variable {run : List (Env × Input)}

theorem over_of_routes (h : (Router.after run).routes.lookup callId = none) : Over run callId := by
  have hkeyed := (inv_after run).keyed.modes callId
  rw [h, Option.isSome_none, Option.isSome_eq_false_iff, Option.isNone_iff_eq_none] at hkeyed
  exact ⟨h, hkeyed⟩

section Step

variable {run : List (Env × Input)} {x : Env × Input}

theorem received_of_sound (hsound : ¬Slip (Router.after run) x) {more : List Output}
    {s' : Router} (hwent : Went (Router.after run) x outputs s₁ d more s') :
    ¬Unreceived x.1 d.onlyWifi d.action (s₁.routes.lookup d.action.callId) := by
  intro hunreceived
  refine hsound (.unreceived d hwent.goesOn ?_)
  rwa [hwent.before_eq] at hunreceived
  obtain ⟨command, -, haction, -⟩ := hunreceived
  rw [haction]
  rfl

/-- A step rests, or an action goes on. -/
theorem rested_or_went (h : Inv s) (x : Env × Input) :
    (∃ s₁, Turn x.1 s x.2 (s.step x).1 s₁ none ∧ (s.step x).2 = counted s₁) ∨
    ∃ outputs s₁ d more s', Went s x outputs s₁ d more s' := by
  have hstepped := step_stepped h x
  generalize hs : s.step x = stepped at hstepped
  obtain ⟨outputs', s'⟩ := stepped
  cases hstepped with
  | rested outputs s₁ turn => exact .inl ⟨s₁, turn, rfl⟩
  | went outputs s₁ d more s₂ turn inv ready dispatched goesOn =>
    exact .inr ⟨outputs, s₁, d, more, s₂, turn, inv, ready, dispatched, goesOn, by rw [hs]; rfl,
      by rw [hs]; rfl⟩

theorem reported_ends (hsound : ¬Slip (Router.after run) x)
    (hreported : .reported event ∈ Router.outputs run x) (hterminal : event.isTerminal = true) :
    Over (run ++ [x]) event.callId := by
  have hinv := inv_after run
  refine over_of_routes ?_
  rw [after_concat]
  unfold Router.outputs at hreported
  rcases rested_or_went hinv x with ⟨s₁, hturn, hstate⟩ | ⟨outputs, s₁, d, more, s', hwent⟩
  · rw [hstate]
    cases said_of_turn hturn hreported with
    | idle _ hidle =>
      rw [Output.Idle, hterminal] at hidle
      cases hidle
    | unavailable callId hnone => exact hnone
  · rw [hwent.state_eq]
    rw [hwent.outputs_eq] at hreported
    rcases mem_append.mp hreported with h | h
    · have hidle := idle_of_turn hwent.turn _ h
      rw [Output.Idle, hterminal] at hidle
      cases hidle
    · have hreports := hwent.dispatched.effect.reports (received_of_sound hsound hwent) h
      rw [hreports.callId]
      rcases hreports.ended hterminal with hnone | ⟨hstart, hsame⟩
      · exact hnone
      · exact hsame.trans (hwent.ready.new hstart)

theorem forwarded_ends (hforwarded : .forwarded kind event ∈ Router.outputs run x)
    (hterminal : event.isTerminal = true) : Over (run ++ [x]) event.callId := by
  obtain ⟨outputs, s₁, d, more, s', hwent, hmore⟩ :=
    went_of_passes (inv_after run) hforwarded trivial
  refine over_of_routes ?_
  rw [after_concat, hwent.state_eq]
  cases hwent.dispatched.effect.forwards hmore with
  | owner route action_eq before_eq owner ended answered =>
    have hnone := ended hterminal
    rw [action_eq] at hnone
    exact hnone
  | incoming route' action_eq incoming =>
    cases event <;> first | cases incoming; done | cases hterminal

theorem sent_ends
    (hsent : .sent kind command ∈ Router.outputs run x) (hterminal : command.isTerminal = true) :
    Over (run ++ [x]) command.callId := by
  obtain ⟨outputs, s₁, d, more, s', hwent, hmore⟩ := went_of_passes (inv_after run) hsent trivial
  refine over_of_routes ?_
  rw [after_concat, hwent.state_eq]
  obtain ⟨hnamed, hnone⟩ := hwent.dispatched.effect.sentEnds hmore hterminal
    fun route hroute => hwent.inv.routes _ route hroute
  rw [hnamed]
  exact hnone

/-- What is refused while nothing goes on is refused to a leg that does not have the call. -/
theorem refused_of_turn (hinv : Inv s) (hsound : ¬Slip s x) (hturn : Turn x.1 s x.2 outputs s₁ none)
    (hrefused : .refused kind callId ∈ outputs) {route : CallRoute}
    (hroute : s₁.routes.lookup callId = some route) : route.owner ≠ kind := by
  obtain ⟨env, input⟩ := x
  intro howner
  obtain ⟨-, hshrinks, -⟩ := inv_turn hinv hturn
  cases hturn with
  | idle _ _ noAction idle => exact idle _ hrefused
  | closed => cases mem_singleton.mp hrefused
  | evidence kind' =>
    obtain ⟨_, -, h⟩ := mem_map.mp hrefused
    cases h
  | unmatched => cases hrefused
  | foreign kind' event _ owner refusals =>
    obtain ⟨heq, -⟩ := refusals _ hrefused
    obtain ⟨rfl, rfl⟩ : kind = kind' ∧ callId = event.callId := by simpa using heq
    rw [ownerOf, hroute, Option.map_some, Option.some_or, Option.any_some, decide_eq_true_eq]
      at owner
    exact owner howner
  | lagged =>
    rcases (env.rejectPending_rejected s).outputs _ hrefused with
      h | ⟨item, hitem, kind', heq, -, htakes, hwhy⟩ | ⟨_, heq, -⟩
    · exact h
    · obtain ⟨rfl, rfl⟩ : kind = kind' ∧ callId = item.action.callId := by simpa using heq
      rcases hwhy with ⟨event, hevent, hincoming⟩ | hnone
      · obtain ⟨id, hid⟩ := mem_waiting.mp hitem
        obtain ⟨route₀, hroute₀, -⟩ := hshrinks.routes _ route hroute
        obtain rfl := (hinv.pending id item hid).named
        exact hsound (.lagged _ item kind event route₀ rfl hid hevent hincoming hroute₀ htakes)
      · rw [hnone] at hroute
        cases hroute
    · cases heq
  | owned _ action changed outputs₀ s₀ outputs₁ _ _ taken owner change cleared owned =>
    rcases mem_append.mp hrefused with h | hrefused
    · cases change _ h
    rcases mem_append.mp hrefused with h | hrefused
    · cases cleared with
      | kept => cases h
      | free => cases h
      | cancelled => exact idle_of_drop h
    cases owned with
    | repeated _ busy idle => exact idle _ hrefused
    | waits => cases hrefused
    | full guarded observed many free needs =>
      rcases (env.rejectCostChecked_rejected action s₀).outputs _ hrefused with
        h | ⟨kind', heq, -, htakes, hwhy⟩ | ⟨heq, -⟩
      · exact h
      · obtain ⟨rfl, rfl⟩ : kind = kind' ∧ callId = action.callId := by simpa using heq
        rcases hwhy with ⟨event, rfl, hincoming⟩ | hnone
        · obtain rfl := (cleared.eq_of_needs needs).2
          obtain ⟨route₀, hroute₀, -⟩ := hshrinks.routes _ route hroute
          have hother : kind ≠ .vowifi := by
            unfold needsHomeObservation at observed
            dsimp only at observed
            rw [hincoming, Bool.and_eq_true, if_pos rfl, Option.any_some, decide_eq_true_eq]
              at observed
            exact observed.2
          exact hsound (.full kind event route₀ (input_of_event taken) hincoming hroute₀
            (owner_of_routed (owner kind event rfl) hroute₀) hother free many guarded htakes)
        · rw [hnone] at hroute
          cases hroute
      · cases heq

theorem refused_ends (hsound : ¬Slip (Router.after run) x)
    (hrefused : .refused kind callId ∈ Router.outputs run x) : ¬Owns (run ++ [x]) kind callId := by
  have hinv := inv_after run
  rintro ⟨route, hroute, howner⟩
  rw [after_concat] at hroute
  unfold Router.outputs at hrefused
  rcases rested_or_went hinv x with ⟨s₁, hturn, hstate⟩ | ⟨outputs, s₁, d, more, s', hwent⟩
  · rw [hstate] at hroute
    exact refused_of_turn hinv hsound hturn hrefused hroute howner
  · rw [hwent.state_eq] at hroute
    rw [hwent.outputs_eq] at hrefused
    rcases mem_append.mp hrefused with h | h
    · exact idle_of_turn hwent.turn _ h
    · obtain ⟨hnamed, -, hothers⟩ := hwent.dispatched.effect.refusals h
      rw [hnamed] at hroute
      exact hothers route hroute howner

end Step

/-! ## Where a start is -/

/-- A start of the call goes to a leg. -/
def Started (callId : Str) (outputs : List Output) : Prop :=
  ∃ kind command, .sent kind command ∈ outputs ∧ command.isStart = true ∧
    command.callId = callId

/-- A start that goes on goes to a leg, or fails. -/
theorem Effect.placed
    (h : Effect env onlyWifi action before outputs after) (hstart : action.isStart = true) :
    (Started action.callId outputs ∧ ¬action.Fails outputs) ∨
      ¬Started action.callId outputs ∧ action.Fails outputs := by
  have hsilent : ∀ {outputs : List Output}, (∀ kind command, .sent kind command ∉ outputs) →
      ¬Started action.callId outputs := fun h ⟨kind, command, hsent, _⟩ => h kind command hsent
  cases h with
  | abandoned plan response =>
    exact .inr ⟨hsilent fun _ _ h => by simp at h, .inl (mem_singleton_self _)⟩
  | notPlanned plan response route error =>
    exact .inr ⟨hsilent fun _ _ h => by simp at h, .inr ⟨error, mem_singleton_self _⟩⟩
  | planned plan response route leg live among =>
    obtain ⟨hnamed, hleg⟩ := commandFor_eq_some among.command
    refine .inl ⟨⟨leg.kind, leg.command, mem_cons_self .., hleg, hnamed⟩, ?_⟩
    rintro (h | ⟨error, h⟩) <;> simp at h
  | withdrawn plan response route leg live among =>
    obtain ⟨hnamed, hleg⟩ := commandFor_eq_some among.command
    refine .inl ⟨⟨leg.kind, leg.command, mem_cons_self .., hleg, hnamed⟩, ?_⟩
    rintro (h | ⟨error, h⟩) <;> simp at h
  | notStarted command caller callee =>
    exact .inr ⟨hsilent fun _ _ h => by simp at h,
      mem_cons_of_mem _ (mem_singleton_self _)⟩
  | started command caller callee route start leg =>
    refine .inl ⟨⟨leg.kind, command, mem_cons_of_mem _ (mem_singleton_self _), start,
      rfl⟩, fun h => ?_⟩
    replace h : Output.reported (.unavailable command.callId) ∈
      [Output.reported (.started command.callId caller callee), .sent leg.kind command] := h
    simp at h
  | unrouted command start => exact absurd hstart (by rw [CostCheckedAction.isStart, start]; decide)
  | outdated command route start =>
    exact absurd hstart (by rw [CostCheckedAction.isStart, start]; decide)
  | delivered command route start =>
    exact absurd hstart (by rw [CostCheckedAction.isStart, start]; decide)
  | undelivered command route start =>
    exact absurd hstart (by rw [CostCheckedAction.isStart, start]; decide)
  | notAccepted command route accept =>
    replace hstart : command.isStart = true := hstart
    cases command <;> first | cases hstart; done | cases accept
  | forbidden command route transfer =>
    replace hstart : command.isStart = true := hstart
    cases command <;> first | cases hstart; done | cases transfer
  | ignored | incoming | lost | failedOver | forwarded => cases hstart

/-- Where a start is after a step: it waits, or it has gone to a leg, or it is reported back. -/
inductive Placed (run : List (Env × Input)) (x : Env × Input) (action : CostCheckedAction) :
    Prop where
  | waits (item) (pending : (Router.after (run ++ [x])).pending.lookup action.callId = some item)
      (action_eq : item.action = action)
      (notStarted : ¬Started action.callId (Router.outputs run x))
      (notFailed : ∀ command, action = .command command → ¬action.Fails (Router.outputs run x))
  | started (gone : (Router.after (run ++ [x])).pending.lookup action.callId = none)
      (started : Started action.callId (Router.outputs run x))
      (notFailed : ¬action.Fails (Router.outputs run x))
  | failed (gone : (Router.after (run ++ [x])).pending.lookup action.callId = none)
      (notStarted : ¬Started action.callId (Router.outputs run x))
      (failed : action.Fails (Router.outputs run x))

/-- A start that is accepted in this step, or waits. -/
def InPlay (s : Router) (input : Input) (action : CostCheckedAction) : Prop :=
  action.isStart = true ∧
    ((input.action = some action ∧ s.routes.lookup action.callId = none ∧
        s.pending.lookup action.callId = none) ∨
      ∃ item, s.pending.lookup action.callId = some item ∧ item.action = action)

section Placed

variable {run : List (Env × Input)} {x : Env × Input} {action : CostCheckedAction}

variable {item : PendingAdmission}

/-- A start that stays where it is. -/
theorem placed_of_waits
    (hitem : (Router.after (run ++ [x])).pending.lookup action.callId = some item)
    (haction : item.action = action)
    (hsent : ∀ kind command, .sent kind command ∈ Router.outputs run x →
      command.isStart = true → command.callId ≠ action.callId)
    (hreported : ∀ command, action = .command command →
      .reported (.unavailable action.callId) ∉ Router.outputs run x) : Placed run x action :=
  .waits item hitem haction
    (fun ⟨kind, command, h, hstart, hsame⟩ => hsent kind command h hstart hsame)
    fun command hcommand hfails => hreported command hcommand (by
      subst hcommand
      exact hfails)

variable {more : List Output} {s' : Router}

/-- A start that goes on, with nothing said before but that a leg has lost the call. -/
theorem placed_of_went (hstart : action.isStart = true)
    (hwent : Went (Router.after run) x outputs s₁ d more s') (haction : d.action = action)
    (hquiet : ∀ output ∈ outputs, output = .reported (.attemptChanged action.callId)) :
    Placed run x action := by
  subst haction
  have hgone : (Router.after (run ++ [x])).pending.lookup d.action.callId = none := by
    rw [after_concat, hwent.state_eq]
    change s'.pending.lookup d.action.callId = none
    rw [hwent.dispatched.settled.pending]
    exact hwent.ready.free (needsAdmission_of_isStart hstart)
  have hstarted : Started d.action.callId (outputs ++ more) ↔ Started d.action.callId more := by
    refine ⟨fun ⟨kind, command, h, hrest⟩ => ?_, fun ⟨kind, command, h, hrest⟩ =>
      ⟨kind, command, mem_append_right _ h, hrest⟩⟩
    rcases mem_append.mp h with h | h
    · cases hquiet _ h
    · exact ⟨kind, command, h, hrest⟩
  have hfails : d.action.Fails (outputs ++ more) ↔ d.action.Fails more := by
    refine ⟨fun h => ?_, fun h => h.mono (subset_append_right _ _)⟩
    have hmore : ∀ {output : Output}, output ∈ outputs ++ more →
        output ≠ .reported (.attemptChanged d.action.callId) → output ∈ more := fun h hne =>
      (mem_append.mp h).resolve_left fun h => hne (hquiet _ h)
    cases haction : d.action with
    | request plan response =>
      rw [haction] at h
      rcases h with h | ⟨error, h⟩
      · exact .inl (hmore h fun heq => by cases heq)
      · exact .inr ⟨error, hmore h fun heq => by cases heq⟩
    | command command =>
      rw [haction] at h
      exact hmore h fun heq => by cases heq
    | event kind event =>
      rw [haction] at h
      exact h.elim
  have houtputs : Router.outputs run x = outputs ++ more := hwent.outputs_eq
  rcases hwent.dispatched.effect.placed hstart with ⟨h, hnot⟩ | ⟨hnot, h⟩
  · exact .started hgone (houtputs ▸ hstarted.mpr h) (houtputs ▸ fun h => hnot (hfails.mp h))
  · exact .failed hgone (houtputs ▸ fun h => hnot (hstarted.mp h)) (houtputs ▸ hfails.mpr h)

/-- A start that is given up. -/
theorem placed_of_failed (hgone : (Router.after (run ++ [x])).pending.lookup action.callId = none)
    (hsent : ∀ kind command, .sent kind command ∈ Router.outputs run x →
      command.isStart = true → command.callId ≠ action.callId)
    (hfails : action.Fails (Router.outputs run x)) : Placed run x action :=
  .failed hgone (fun ⟨kind, command, h, hstart, hsame⟩ => hsent kind command h hstart hsame) hfails

theorem not_sent_of_rested
    (hturn : Turn x.1 s x.2 outputs s₁ none) (kind : AccessPathKind) (command : OperatorCommand) :
    .sent kind command ∉ outputs :=
  fun h => not_passes_of_said (said_of_turn hturn h) trivial

/-- A start that waits, in a step in which nothing goes on. -/
theorem placed_of_rested (hstart : action.isStart = true)
    (hturn : Turn x.1 (Router.after run) x.2 (Router.outputs run x) s₁ none)
    (hstate : Router.after (run ++ [x]) = counted s₁)
    (hitem : (Router.after run).pending.lookup action.callId = some item)
    (haction : item.action = action) : Placed run x action := by
  have hsent : ∀ kind command, .sent kind command ∈ Router.outputs run x →
      command.isStart = true → command.callId ≠ action.callId := fun kind command h =>
    absurd h (not_sent_of_rested hturn kind command)
  have hstays : s₁.pending.lookup action.callId = some item →
      (∀ output ∈ Router.outputs run x, output ≠ .reported (.unavailable action.callId)) →
      Placed run x action := fun h hne =>
    placed_of_waits (by rw [hstate]; exact h) haction hsent fun _ _ h => hne _ h rfl
  have hidle : ∀ output : Output, output.Idle →
      output ≠ .reported (.unavailable action.callId) := by
    rintro output h rfl
    cases h
  generalize houtputs : Router.outputs run x = outputs at hturn hstays hsent
  obtain ⟨env, input⟩ := x
  cases hturn with
  | idle _ _ noAction idle => exact hstays hitem fun output h => hidle output (idle output h)
  | closed => exact hstays hitem fun output h => by rw [mem_singleton.mp h]; simp
  | evidence kind =>
    refine hstays hitem fun output h => ?_
    obtain ⟨_, -, rfl⟩ := mem_map.mp h
    simp
  | unmatched => exact hstays hitem fun output h => by cases h
  | foreign kind event _ owner refusals =>
    exact hstays hitem fun output h => by rw [(refusals output h).1]; simp
  | lagged =>
    have hrejected := env.rejectPending_rejected (Router.after run)
    refine placed_of_failed ?_ (houtputs ▸ hsent) ?_
    · rw [hstate]
      change (env.rejectPending (Router.after run)).2.pending.lookup action.callId = none
      rw [hrejected.pending]
      rfl
    · rw [houtputs, ← haction]
      exact hrejected.fails item (mem_waiting.mpr ⟨_, hitem⟩) (haction ▸ hstart)
  | owned _ action' changed outputs₀ s₀ outputs₁ _ _ taken owner change cleared owned =>
    have hneeds : action'.needsAdmission = true := by
      cases owned with
      | repeated _ busy => exact busy.elim (·.2.1) fun h => needsAdmission_of_isStart h.2
      | full guarded observed many free needs => exact needs
      | waits guarded observed needs => exact needs
    obtain ⟨rfl, rfl⟩ := cleared.eq_of_needs hneeds
    have hother : (Router.after run).pending.lookup action'.callId = none →
        action.callId ≠ action'.callId := by
      intro hfree heq
      rw [← heq, hitem] at hfree
      cases hfree
    have hsaid : (∀ output ∈ outputs₁, output ≠ .reported (.unavailable action.callId)) →
        ∀ output ∈ changed ++ ([] ++ outputs₁),
          output ≠ .reported (.unavailable action.callId) := by
      intro h output houtput
      rcases mem_append.mp houtput with hchanged | houtput
      · rw [change output hchanged]
        simp
      · exact h output houtput
    cases owned with
    | repeated _ busy idle =>
      exact hstays hitem (hsaid fun output h => hidle output (idle output h))
    | full guarded observed many free needs =>
      have hrejected := env.rejectCostChecked_rejected action' (Router.after run)
      refine hstays (by rw [hrejected.pending]; exact hitem) (hsaid fun output h => ?_)
      rcases hrejected.outputs output h with hquiet | ⟨kind, rfl, -⟩ | ⟨rfl, -⟩
      · exact hidle output hquiet
      · simp
      · intro heq
        injection heq with heq
        injection heq with heq
        exact hother free heq.symm
    | waits guarded observed needs free =>
      have hkept : (spawnAdmission action' 2 (Router.after run)).pending.lookup
          action.callId = (Router.after run).pending.lookup action.callId :=
        AList.lookup_insert_ne (hother free)
      exact hstays (hkept.trans hitem) (hsaid fun output h => by cases h)

theorem Sends.callId_of_start (h : Sends env onlyWifi action before outputs after kind command)
    (hstart : command.isStart = true)
    (hok : ∀ route, before = some route → RouteOk action.callId route) :
    command.callId = action.callId := by
  cases h with
  | first leg start live named => exact named.1
  | next event route leg remaining action_eq unavailable before_eq live sub among =>
    exact ((hok route before_eq).of_among sub among).2.2.1
  | withdrawn => cases hstart
  | owner _ route action_eq notStart =>
    rw [hstart] at notStart
    cases notStart

/-- A start that waits while an action of another call goes on. -/
theorem placed_of_other (hsound : ¬Slip (Router.after run) x)
    (hwent : Went (Router.after run) x outputs s₁ d more s')
    (hitem : s₁.pending.lookup action.callId = some item)
    (haction : item.action = action) (hother : d.action.callId ≠ action.callId) :
    Placed run x action := by
  have houtputs : Router.outputs run x = outputs ++ more := hwent.outputs_eq
  refine placed_of_waits ?_ haction (fun kind command h hcommand hsame => ?_) fun _ _ h => ?_
  · rw [after_concat, hwent.state_eq]
    change s'.pending.lookup action.callId = some item
    rw [hwent.dispatched.settled.pending]
    exact hitem
  · rw [houtputs] at h
    rcases mem_append.mp h with h | h
    · exact absurd (idle_of_turn hwent.turn _ h) id
    · have hnamed := (hwent.dispatched.effect.sends h).callId_of_start hcommand
        fun route hroute => hwent.inv.routes _ route hroute
      exact hother (hnamed.symm.trans hsame)
  · rw [houtputs] at h
    rcases mem_append.mp h with h | h
    · cases idle_of_turn hwent.turn _ h
    · exact hother
        (hwent.dispatched.effect.reports (received_of_sound hsound hwent) h).callId.symm

/-- An action that starts no call sends nothing for a call without a route. -/
theorem not_sent_of_unrouted (h : Effect env onlyWifi action none outputs after)
    (hother : action.isStart = false) (kind : AccessPathKind) (command : OperatorCommand) :
    .sent kind command ∉ outputs := by
  intro hsent
  cases h.sends hsent with
  | first leg start =>
    rw [hother] at start
    cases start
  | next _ _ _ _ _ _ before_eq => cases before_eq
  | withdrawn plan response leg action_eq =>
    rw [action_eq] at hother
    cases hother
  | owner _ _ _ _ before_eq => cases before_eq

theorem fails_of_drop {plan : VoiceCallPlan} {response : ℕ}
    (h : ∀ output ∈ (CostCheckedAction.request plan response).drop, output ∈ outputs) :
    (CostCheckedAction.request plan response).Fails outputs :=
  .inl (h _ (mem_singleton_self _))

theorem input_of_command
    (h : input.action = some (.command command)) : input = .command command := by
  cases input with
  | command command' =>
    obtain rfl : command' = command := by simpa [Input.action] using h
    rfl
  | event | commandsLagged | startCall | callAccess | joined | tick => cases h

/-- No leg makes the trunk believe that a call without a route is unavailable. -/
theorem not_reported_of_event
    (h : Effect env onlyWifi (.event kind event) none outputs after) (event' : OperatorEvent) :
    .reported event' ∉ outputs := by
  intro hreported
  cases h with
  | ignored _ _ _ _ refusals => cases (refusals _ hreported).1
  | incoming => simp at hreported

/-- The trunk hears that a call that it ends has no route. -/
theorem unavailable_of_terminal (h : Effect env onlyWifi (.command command) none outputs after)
    (hterminal : command.isTerminal = true) :
    .reported (.unavailable command.callId) ∈ outputs := by
  cases h with
  | notStarted _ caller callee _ start =>
    cases command <;> first | cases start; done | cases hterminal
  | started _ caller callee _ start =>
    cases command <;> first | cases start; done | cases hterminal
  | unrouted =>
    rw [if_neg]
    · exact mem_singleton_self _
    · intro htransfer
      cases command <;> first | cases htransfer; done | cases hterminal

/-- A start that waits while an action of its own call goes on. -/
theorem placed_of_owned (hsound : ¬Slip (Router.after run) x) (hstart : action.isStart = true)
    (hwent : Went (Router.after run) x outputs s₁ d more s')
    (taken : x.2.action = some d.action)
    (hitem : (Router.after run).pending.lookup action.callId = some item)
    (haction : item.action = action) (hsame : d.action.callId = action.callId)
    (hother : d.action.isStart = false) (hfate : (s₁.pending.lookup action.callId = some item ∧
        d.action.needsAdmission = false ∧ d.action.cancelsPending = false) ∨
      s₁.pending.lookup action.callId = none ∧ (∀ output ∈ action.drop, output ∈ outputs) ∧
        (d.action.cancelsPending = true ∨ d.action.isUnavailable = true)) :
    Placed run x action := by
  have hinv := inv_after run
  have hwaits := hinv.pending _ item hitem
  have hnone : s₁.routes.lookup d.action.callId = none := by
    rw [hsame]
    exact (inv_turn hinv hwent.turn).2.1.none (hwaits.new (haction ▸ hstart))
  have heffect := hwent.dispatched.effect
  rw [hnone] at heffect
  have houtputs : Router.outputs run x = outputs ++ more := hwent.outputs_eq
  have hpending : (Router.after (run ++ [x])).pending = s₁.pending := by
    rw [after_concat, hwent.state_eq]
    exact hwent.dispatched.settled.pending
  have hsent : ∀ kind command, .sent kind command ∈ Router.outputs run x →
      command.isStart = true → command.callId ≠ action.callId := by
    intro kind command h
    rw [houtputs] at h
    rcases mem_append.mp h with h | h
    · exact absurd (idle_of_turn hwent.turn _ h) id
    · exact absurd h (not_sent_of_unrouted heffect hother kind command)
  have hstarts : ∀ command, action = .command command →
      StartWaits (Router.after run) d.action.callId := fun command hcommand =>
    ⟨item, command, hsame ▸ hitem, haction.trans hcommand, by rw [hcommand] at hstart; exact hstart⟩
  rcases hfate with ⟨hstays, hneeds, hkeeps⟩ | ⟨hgone, hdropped, hcancels⟩
  · refine placed_of_waits (by rw [hpending]; exact hstays) haction hsent
      fun command hcommand h => ?_
    rw [houtputs] at h
    rcases mem_append.mp h with h | h
    · cases idle_of_turn hwent.turn _ h
    · have hwaiting := hstarts command hcommand
      cases hd : d.action with
      | request plan response =>
        rw [hd] at hneeds
        cases hneeds
      | command command' =>
        rw [hd] at hneeds hkeeps hwaiting taken
        exact hsound (.early command' (input_of_command taken) hwaiting hneeds hkeeps)
      | event kind event =>
        rw [hd] at heffect
        exact not_reported_of_event heffect _ h
  · refine placed_of_failed (by rw [hpending]; exact hgone) hsent ?_
    rw [houtputs]
    cases hcase : action with
    | event kind event =>
      rw [hcase] at hstart
      cases hstart
    | request plan response =>
      rw [hcase] at hdropped
      exact fails_of_drop fun output h => mem_append_left _ (hdropped output h)
    | command command =>
      have hwaiting := hstarts command hcase
      cases hd : d.action with
      | request plan response =>
        rw [hd] at hother
        cases hother
      | command command' =>
        rw [hd] at hcancels heffect hsame
        have hterminal : command'.isTerminal = true := hcancels.resolve_right (fun h => by cases h)
        have hreported := unavailable_of_terminal heffect hterminal
        rw [hcase] at hsame
        change command'.callId = command.callId at hsame
        rw [hsame] at hreported
        exact mem_append_right _ hreported
      | event kind event =>
        rw [hd] at hcancels hwaiting taken
        refine absurd (.dropped kind event (input_of_event taken) hwaiting ?_) hsound
        rcases hcancels with h | h
        · rw [CostCheckedAction.cancelsPending, Bool.or_eq_true, Bool.and_eq_true] at h
          exact h.imp_right And.left
        · cases event <;> first | exact .inr rfl | cases h

/-- A start that waits, in a step in which an action goes on. -/
theorem placed_of_going (hsound : ¬Slip (Router.after run) x) (hstart : action.isStart = true)
    (hwent : Went (Router.after run) x outputs s₁ d more s')
    (hitem : (Router.after run).pending.lookup action.callId = some item)
    (haction : item.action = action) : Placed run x action := by
  have hturn := hwent.turn
  obtain ⟨env, input⟩ := x
  cases hturn with
  | resumed index admission item' home checkedAt ran waits ticket =>
    have hnamed := ((inv_after run).pending _ item' waits).named
    by_cases hsame : admission.callId = action.callId
    · rw [hsame, hitem] at waits
      obtain rfl := Option.some.inj waits
      exact placed_of_went hstart hwent haction fun _ h => by cases h
    · refine placed_of_other hsound hwent ?_ haction (hnamed ▸ hsame)
      exact (AList.lookup_erase_ne (Ne.symm hsame)).trans hitem
  | owned _ action' changed outputs₀ s₀ outputs₁ _ _ taken owner change cleared owned =>
    have hlookup : ∀ {s : Router}, action'.callId ≠ action.callId →
        s.pending.lookup action.callId = some item →
        (withoutPending action'.callId s).pending.lookup action.callId = some item := fun hne h =>
      (AList.lookup_erase_ne (Ne.symm hne)).trans h
    have hgone : ∀ s : Router, action'.callId = action.callId →
        (withoutPending action'.callId s).pending.lookup action.callId = none := by
      intro s heq
      rw [← heq]
      exact AList.lookup_erase ..
    by_cases hsame : action'.callId = action.callId
    · cases owned with
      | stale kind event item' event_eq unavailable waits =>
        have hneeds : action'.needsAdmission = true := by
          rw [event_eq, CostCheckedAction.needsAdmission, unavailable, Bool.or_true]
        obtain ⟨rfl, rfl⟩ := cleared.eq_of_needs hneeds
        rw [hsame, hitem] at waits
        obtain rfl := Option.some.inj waits
        refine placed_of_owned hsound hstart hwent taken hitem haction hsame
          (isStart_of_event event_eq) (.inr ⟨hgone _ hsame, ?_, .inr ?_⟩)
        · rw [← haction]
          exact fun output h => mem_append_right _ h
        · dsimp only
          rw [event_eq]
          exact unavailable
      | goesOn free new =>
        cases cleared with
        | kept keeps =>
          have hneeds : action'.needsAdmission = false := by
            rw [← Bool.not_eq_true]
            intro hneeds
            have hfree := free hneeds
            rw [hsame, hitem] at hfree
            cases hfree
          refine placed_of_owned hsound hstart hwent taken hitem haction hsame ?_
            (.inl ⟨hitem, hneeds, keeps⟩)
          rw [← Bool.not_eq_true]
          intro h
          have hneeds' := needsAdmission_of_isStart h
          rw [hneeds] at hneeds'
          cases hneeds'
        | free cancels hfree =>
          rw [hsame, hitem] at hfree
          cases hfree
        | cancelled item' cancels waits =>
          rw [hsame, hitem] at waits
          obtain rfl := Option.some.inj waits
          refine placed_of_owned hsound hstart hwent taken hitem haction hsame ?_
            (.inr ⟨hgone _ hsame, ?_, .inl cancels⟩)
          · rw [← Bool.not_eq_true]
            intro h
            rw [cancelsPending_of_needs (needsAdmission_of_isStart h)] at cancels
            cases cancels
          · rw [← haction]
            exact fun output h => mem_append_right _ (mem_append_left _ h)
    · refine placed_of_other hsound hwent ?_ haction (by cases owned <;> exact hsame)
      have hcleared : s₀.pending.lookup action.callId = some item := by
        cases cleared with
        | kept => exact hitem
        | free => exact hlookup hsame hitem
        | cancelled => exact hlookup hsame hitem
      cases owned with
      | stale => exact hlookup hsame hcleared
      | goesOn => exact hcleared

/-- A start that is taken in. -/
theorem placed_of_taken (hstart : action.isStart = true) (htaken : x.2.action = some action)
    (hnew : (Router.after run).routes.lookup action.callId = none)
    (hfree : (Router.after run).pending.lookup action.callId = none) : Placed run x action := by
  have hinv := inv_after run
  have hneeds := needsAdmission_of_isStart hstart
  rcases rested_or_went hinv x with ⟨s₁, hturn, hstate⟩ | ⟨outputs, s₁, d, more, s', hwent⟩
  · have hsent : ∀ kind command, .sent kind command ∈ Router.outputs run x →
        command.isStart = true → command.callId ≠ action.callId := fun kind command h =>
      absurd h (not_sent_of_rested hturn kind command)
    have hpending : (Router.after (run ++ [x])).pending = s₁.pending := by
      rw [after_concat, hstate]
      rfl
    change Turn x.1 (Router.after run) x.2 (Router.outputs run x) s₁ none at hturn
    generalize houtputs : Router.outputs run x = outputs at hturn hsent
    obtain ⟨env, input⟩ := x
    cases hturn with
    | idle _ _ noAction =>
      rw [noAction] at htaken
      cases htaken
    | lagged => cases htaken
    | unmatched => cases htaken
    | evidence =>
      obtain rfl := Option.some.inj htaken
      cases hstart
    | foreign =>
      obtain rfl := Option.some.inj htaken
      cases hstart
    | closed plan response =>
      obtain rfl := Option.some.inj htaken
      exact placed_of_failed (by rw [hpending]; exact hfree) (houtputs ▸ hsent)
        (houtputs ▸ .inl (mem_singleton_self _))
    | owned _ action' changed outputs₀ s₀ outputs₁ _ _ taken owner change cleared owned =>
      obtain rfl := Option.some.inj (taken.symm.trans htaken)
      obtain ⟨rfl, rfl⟩ := cleared.eq_of_needs hneeds
      cases owned with
      | repeated _ busy =>
        rcases busy with ⟨hbusy, -⟩ | ⟨hbusy, -⟩
        · rw [hfree] at hbusy
          cases hbusy
        · rw [hnew] at hbusy
          cases hbusy
      | full =>
        have hrejected := env.rejectCostChecked_rejected action' (Router.after run)
        refine placed_of_failed ?_ (houtputs ▸ hsent) (houtputs ▸ ?_)
        · rw [hpending, hrejected.pending]
          exact hfree
        · exact (hrejected.fails hstart).mono fun output h =>
            mem_append_right _ (mem_append_right _ h)
      | waits =>
        refine placed_of_waits (by rw [hpending]; exact AList.lookup_insert ..) rfl
          (houtputs ▸ hsent) (houtputs ▸ fun _ _ h => ?_)
        rcases mem_append.mp h with h | h
        · cases change _ h
        · cases h
  · have hturn := hwent.turn
    obtain ⟨env, input⟩ := x
    cases hturn with
    | resumed => cases htaken
    | owned _ action' changed outputs₀ s₀ outputs₁ _ _ taken owner change cleared owned =>
      obtain rfl := Option.some.inj (taken.symm.trans htaken)
      obtain ⟨rfl, rfl⟩ := cleared.eq_of_needs hneeds
      cases owned with
      | stale kind event item event_eq =>
        rw [isStart_of_event event_eq] at hstart
        cases hstart
      | goesOn =>
        refine placed_of_went hstart hwent rfl fun output h => ?_
        rcases mem_append.mp h with h | h
        · exact change output h
        · cases h

/-- A start that is accepted waits, goes to a leg or is reported back, and not two of these. -/
theorem placed (hsound : ¬Slip (Router.after run) x)
    (hplay : InPlay (Router.after run) x.2 action) : Placed run x action := by
  obtain ⟨hstart, ⟨htaken, hnew, hfree⟩ | ⟨item, hitem, haction⟩⟩ := hplay
  · exact placed_of_taken hstart htaken hnew hfree
  · rcases rested_or_went (inv_after run) x with
      ⟨s₁, hturn, hstate⟩ | ⟨outputs, s₁, d, more, s', hwent⟩
    · exact placed_of_rested hstart hturn (by rw [after_concat, hstate]) hitem haction
    · exact placed_of_going hsound hstart hwent hitem haction

end Placed

/-! ## Silence -/

/-- A start of the call goes to the leg, or its incoming call is taken. -/
def BegunAt (run : List (Env × Input)) (x : Env × Input) (kind : AccessPathKind) (callId : Str) :
    Prop :=
  (∃ start, .sent kind start ∈ Router.outputs run x ∧ start.isStart = true ∧
    start.callId = callId) ∨
  ∃ event, .forwarded kind event ∈ Router.outputs run x ∧ event.isIncoming = true ∧
    event.callId = callId

/-- A leg gets a call by a start or by an incoming call. -/
theorem Effect.gains (h : Effect env onlyWifi action before outputs after)
    (hok : ∀ route, before = some route → RouteOk action.callId route) {route' : CallRoute}
    (hafter : after = some route') : (∃ route, before = some route ∧ route.owner = route'.owner) ∨
    (∃ start, .sent route'.owner start ∈ outputs ∧ start.isStart = true ∧
      start.callId = action.callId) ∨
    ∃ event, .forwarded route'.owner event ∈ outputs ∧ event.isIncoming = true ∧
      event.callId = action.callId := by
  cases h with
  | abandoned | notPlanned | notStarted | forbidden | ignored => exact .inl ⟨route', hafter, rfl⟩
  | withdrawn | outdated | notAccepted | lost | unrouted => cases hafter
  | planned plan response route leg live among =>
    obtain rfl := Option.some.inj hafter
    obtain ⟨hnamed, hstart⟩ := commandFor_eq_some among.command
    exact .inr (.inl ⟨leg.command, mem_cons_self .., hstart, hnamed⟩)
  | started command caller callee route start leg =>
    obtain rfl := Option.some.inj hafter
    exact .inr (.inl ⟨command, mem_cons_of_mem _ (mem_singleton_self _), start, rfl⟩)
  | delivered command route =>
    split at hafter
    next => cases hafter
    next => exact .inl ⟨route, rfl, congrArg CallRoute.owner (Option.some.inj hafter)⟩
  | undelivered command route =>
    split at hafter
    next => cases hafter
    next => exact .inl ⟨route, rfl, congrArg CallRoute.owner (Option.some.inj hafter)⟩
  | incoming kind event incoming =>
    obtain rfl := Option.some.inj hafter
    exact .inr (.inr ⟨event, mem_singleton_self _, incoming, rfl⟩)
  | failedOver event route unavailable leg live remaining sub among =>
    obtain rfl := Option.some.inj hafter
    obtain ⟨-, -, hnamed, hstart, -⟩ := (hok route rfl).of_among sub among
    exact .inr (.inl ⟨leg.command, mem_cons_self .., hstart, hnamed⟩)
  | forwarded event route =>
    split at hafter
    next => cases hafter
    split at hafter
    next =>
      obtain rfl := Option.some.inj hafter
      exact .inl ⟨route, rfl, rfl⟩
    next => exact .inl ⟨route, rfl, congrArg CallRoute.owner (Option.some.inj hafter)⟩

theorem begunAt_of_owns {x : Env × Input} (hbefore : ¬Owns run kind callId)
    (hafter : Owns (run ++ [x]) kind callId) :
    BegunAt run x kind callId := by
  have hinv := inv_after run
  obtain ⟨route', hroute', rfl⟩ := hafter
  have hearlier : ∀ {outputs : List Output} {s₁ : Router} {d : Option Dispatch} {route₁},
      Turn x.1 (Router.after run) x.2 outputs s₁ d → s₁.routes.lookup callId = some route₁ →
      route₁.owner = route'.owner → False := by
    intro outputs s₁ d route₁ hturn hroute₁ howner
    obtain ⟨route, hroute, heq⟩ := (inv_turn hinv hturn).2.1.routes _ route₁ hroute₁
    refine hbefore ⟨route, hroute, ?_⟩
    rcases heq with rfl | rfl
    · exact howner
    · exact howner
  rw [after_concat] at hroute'
  rcases rested_or_went hinv x with ⟨s₁, hturn, hstate⟩ | ⟨outputs, s₁, d, more, s', hwent⟩
  · rw [hstate] at hroute'
    exact (hearlier hturn hroute' rfl).elim
  · rw [hwent.state_eq] at hroute'
    change s'.routes.lookup callId = some route' at hroute'
    have houtputs : Router.outputs run x = outputs ++ more := hwent.outputs_eq
    by_cases hid : callId = d.action.callId
    · subst hid
      rcases hwent.dispatched.effect.gains (fun route hroute => hwent.inv.routes _ route hroute)
        hroute' with ⟨route, hroute, howner⟩ | ⟨start, h, hrest⟩ | ⟨event, h, hrest⟩
      · exact (hearlier hwent.turn hroute howner).elim
      · exact .inl ⟨start, houtputs ▸ mem_append_right _ h, hrest⟩
      · exact .inr ⟨event, houtputs ▸ mem_append_right _ h, hrest⟩
    · rw [hwent.dispatched.elsewhere callId hid] at hroute'
      exact (hearlier hwent.turn hroute' rfl).elim

/-- Between a state in which a leg does not have a call and one in which it has it, it gets it. -/
theorem begun_between (middle : List (Env × Input)) :
    ∀ {front : List (Env × Input)}, ¬Owns front kind callId → Owns (front ++ middle) kind callId →
      ∃ first z rest, middle = first ++ z :: rest ∧ BegunAt (front ++ first) z kind callId := by
  induction middle with
  | nil =>
    intro front hbefore hafter
    rw [append_nil] at hafter
    exact absurd hafter hbefore
  | cons z middle ih =>
    intro front hbefore hafter
    by_cases hnow : Owns (front ++ [z]) kind callId
    · refine ⟨[], z, middle, rfl, ?_⟩
      rw [append_nil]
      exact begunAt_of_owns hbefore hnow
    · rw [append_cons] at hafter
      obtain ⟨first, y, rest, rfl, hbegun⟩ := ih hnow hafter
      refine ⟨z :: first, y, rest, rfl, ?_⟩
      rw [append_cons]
      exact hbegun

/-! ## The end of a call -/

/-- A step and those after it, when no call is left behind. -/
structure RoutesEnd (front : List (Env × Input)) (x : Env × Input) (back : List (Env × Input)) :
    Prop where
  /-- What the trunk hears has ended, has. -/
  reported : ∀ event, .reported event ∈ Router.outputs front x → event.isTerminal = true →
    Over (front ++ [x]) event.callId
  forwarded : ∀ kind event, .forwarded kind event ∈ Router.outputs front x →
    event.isTerminal = true → Over (front ++ [x]) event.callId
  /-- A command that ends a call takes its route away. -/
  sent : ∀ kind command, .sent kind command ∈ Router.outputs front x →
    command.isTerminal = true → Over (front ++ [x]) command.callId
  /-- A leg whose incoming call is refused does not have the call. -/
  refused : ∀ kind callId, .refused kind callId ∈ Router.outputs front x →
    ¬Owns (front ++ [x]) kind callId
  /-- A leg that does not have a call is not heard before it gets the call. -/
  silent : ∀ middle z rest kind event, back = middle ++ z :: rest →
    ¬Owns (front ++ [x]) kind event.callId →
    .forwarded kind event ∈ Router.outputs (front ++ x :: middle) z →
    event.isIncoming = true ∨ ∃ first y rest', middle = first ++ y :: rest' ∧
      BegunAt (front ++ x :: first) y kind event.callId
  /-- The modes are those of the routes. -/
  modes : ∀ callId, ((Router.after (front ++ [x])).modes.lookup callId).isSome =
    ((Router.after (front ++ [x])).routes.lookup callId).isSome
  /-- An accepted start waits, goes to a leg or is reported back, and not two of these. -/
  starts : ∀ action, InPlay (Router.after front) x.2 action → Placed front x action

/-- **Routes end with their calls.** In every run without the steps that leave a call behind: what
ends a call takes its route and its mode away, nothing is heard of it until it begins again, and
every accepted start is in one place. -/
theorem routes_end (run : List (Env × Input))
    (hsound : Machine.Along Router.step (fun s x => ¬Slip s x) {} run)
    (front : List (Env × Input)) (x : Env × Input) (back : List (Env × Input))
    (hrun : run = front ++ x :: back) : RoutesEnd front x back := by
  subst hrun
  have hsound : ¬Slip (Router.after front) x := Machine.Along.at Router.step hsound
  exact
    { reported := fun _ h hterminal => reported_ends hsound h hterminal
      forwarded := fun _ _ h hterminal => forwarded_ends h hterminal
      sent := fun _ _ h hterminal => sent_ends h hterminal
      refused := fun _ _ h => refused_ends hsound h
      silent := by
        intro middle z rest kind event _ hbefore hforwarded
        rcases (forwarded_owned (front ++ x :: middle) z kind event hforwarded).2 with
          howns | ⟨-, hincoming, -⟩
        · rw [append_cons] at howns
          obtain ⟨first, y, rest', hsplit, hbegun⟩ := begun_between middle hbefore howns
          rw [← append_cons] at hbegun
          exact .inr ⟨first, y, rest', hsplit, hbegun⟩
        · exact .inl hincoming
      modes := (inv_after _).keyed.modes
      starts := fun _ hplay => placed hsound hplay }

/-- A call that is started and cancelled. -/
def cancelledCall : List (Env × Input) :=
  [(twoLegs, .command trunkStart), (twoLegs, .command (.cancelCall "7".toList))]

theorem cancelledCall_sound :
    Machine.Along Router.step (fun s x => ¬Slip s x) {} cancelledCall := by
  refine ⟨fun hslip => ?_, fun hslip => ?_, trivial⟩
  · cases hslip with
    | unreceived d goesOn unreceived =>
      obtain ⟨command, route, -, hroute, -⟩ := unreceived
      cases hroute
    | early command input_eq waits =>
      obtain ⟨item, command, hitem, -⟩ := waits
      cases hitem
    | dropped kind event input_eq => cases input_eq
    | lagged id item kind event route input_eq => cases input_eq
    | full kind event route input_eq => cases input_eq
  · cases hslip with
    | unreceived d goesOn unreceived =>
      have hdispatch : (twoLegs.receive (.command (.cancelCall "7".toList))
          (Router.after [(twoLegs, .command trunkStart)])).2.2 =
          some ⟨.command (.cancelCall "7".toList), 0, false⟩ := by decide +kernel
      obtain rfl := Option.some.inj (hdispatch.symm.trans goesOn)
      obtain ⟨command, route, haction, -, -, hterminal, -⟩ := unreceived
      injection haction with haction
      subst haction
      cases hterminal
    | early command input_eq waits =>
      obtain ⟨item, command', hitem, -⟩ := waits
      injection input_eq with heq
      have hnone : (Router.after [(twoLegs, .command trunkStart)]).pending.lookup "7".toList =
          none := by decide +kernel
      cases hnone.symm.trans hitem
    | dropped kind event input_eq => cases input_eq
    | lagged id item kind event route input_eq => cases input_eq
    | full kind event route input_eq => cases input_eq

/-- The leg that has the call is told to cancel it, and the route has gone. -/
theorem routes_end_cancelled :
    .sent .vowifi (.cancelCall "7".toList) ∈ Router.outputs [(twoLegs, .command trunkStart)]
        (twoLegs, .command (.cancelCall "7".toList)) ∧ Over cancelledCall "7".toList := by
  have hsent : .sent .vowifi (.cancelCall "7".toList) ∈
      Router.outputs [(twoLegs, .command trunkStart)]
        (twoLegs, .command (.cancelCall "7".toList)) := by decide +kernel
  exact ⟨hsent, (routes_end cancelledCall cancelledCall_sound [(twoLegs, .command trunkStart)]
    (twoLegs, .command (.cancelCall "7".toList)) [] rfl).sent _ _ hsent rfl⟩

/-- The leg has no receiver for its commands any more. -/
def deafLeg : Env :=
  { twoLegs with backends := [⟨.vowifi, ⟨true, 0, 7, false⟩⟩] }

/-- A call that is routed stays so when its owner does not take a command, and the trunk has heard
that the call is unavailable. -/
theorem route_left_behind :
    ¬∀ run x event, .reported event ∈ Router.outputs run x → event.isTerminal = true →
      Over (run ++ [x]) event.callId := by
  intro h
  have hreported : .reported (.unavailable "7".toList) ∈
      Router.outputs [(twoLegs, Input.command trunkStart)]
        (deafLeg, Input.command (.sendDtmf "7".toList ⟨'1', 160, .sipInfo⟩)) := by decide +kernel
  have hover := (h _ _ _ hreported rfl).1
  have hrouted : ((Router.after ([(twoLegs, Input.command trunkStart)] ++
      [(deafLeg, Input.command (.sendDtmf "7".toList ⟨'1', 160, .sipInfo⟩))])).routes.lookup
        "7".toList).isSome = true := by decide +kernel
  change (Router.after ([(twoLegs, Input.command trunkStart)] ++
      [(deafLeg, Input.command (.sendDtmf "7".toList ⟨'1', 160, .sipInfo⟩))])).routes.lookup
        "7".toList = none at hover
  rw [hover] at hrouted
  cases hrouted

end Env

end SimMaster.Trunk
