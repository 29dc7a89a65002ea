import SimMaster.AccessTurns

/-!
# The routes of the voice access router

The candidates of a route come after its owner, in the order of their ranks, so a call that fails
over never comes back to a leg. An action that waits is for a call whose route has not been made
since.
-/

namespace SimMaster.Trunk

open Rust List Option Machine Router

namespace Env

/-! ## What holds after every turn -/

/-- The owner has the first rank, and there are candidates only while the start is kept. -/
structure RouteOk (callId : Str) (route : CallRoute) : Prop where
  ranks : (route.owner :: route.remaining).Pairwise (·.rank < ·.rank)
  started : route.remaining ≠ [] → route.start.isSome = true
  start : ∀ command, route.start = some command → command.callId = callId ∧ command.isStart = true
  plan : ∀ plan, route.startPlan = some plan → plan.callId = callId

/-- The action that waits is one of this call; a start waits before there is a route. -/
structure Waits (s : Router) (callId : Str) (item : PendingAdmission) : Prop where
  named : item.action.callId = callId
  needs : item.action.needsAdmission = true
  new : item.action.isStart = true → s.routes.lookup callId = none
  initial : item.initial = 2
  /-- A leg that has lost the call is the owner. -/
  owner : ∀ kind event route, item.action = .event kind event → event.isUnavailable = true →
    s.routes.lookup callId = some route → route.owner = kind

structure Inv (s : Router) : Prop where
  keyed : Keyed s
  routes : ∀ id route, s.routes.lookup id = some route → RouteOk id route
  pending : ∀ id item, s.pending.lookup id = some item → Waits s id item

/-- The action can go on: it starts a call that has no route, and no other waits. -/
structure Ready (s : Router) (d : Dispatch) : Prop where
  new : d.action.isStart = true → s.routes.lookup d.action.callId = none
  free : d.action.needsAdmission = true → s.pending.lookup d.action.callId = none

theorem inv_start : Inv {} :=
  ⟨⟨fun _ => rfl, fun _ => rfl⟩, fun _ _ h => (by cases h), fun _ _ h => (by cases h)⟩

variable {route : CallRoute} {callId : Str}

theorem RouteOk.withoutRemaining (h : RouteOk callId route) :
    RouteOk callId { route with remaining := [] } :=
  ⟨pairwise_singleton _ _, fun hne => absurd rfl hne, h.start, h.plan⟩

variable {item : PendingAdmission}

theorem Waits.shrinks {s s' : Router}
    (h : Waits s callId item) (hshrinks : Shrinks s s') : Waits s' callId item :=
  ⟨h.named, h.needs, fun hstart => hshrinks.none (h.new hstart), h.initial,
    fun kind event route' hevent hunavailable hroute' => by
      obtain ⟨route, hroute, heq⟩ := hshrinks.routes _ route' hroute'
      have howner := h.owner kind event route hevent hunavailable hroute
      rcases heq with rfl | rfl
      · exact howner
      · exact howner⟩

theorem Inv.shrinks {s s' : Router} (h : Inv s) (hshrinks : Shrinks s s')
    (hpending : ∀ id item, s'.pending.lookup id = some item → s.pending.lookup id = some item) :
    Inv s' := by
  refine ⟨hshrinks.keyed h.keyed, fun id route' hroute' => ?_, fun id item hitem => ?_⟩
  · obtain ⟨route, hroute, heq⟩ := hshrinks.routes id route' hroute'
    rcases heq with rfl | rfl
    · exact h.routes id _ hroute
    · exact (h.routes id route hroute).withoutRemaining
  · exact (h.pending id item (hpending id item hitem)).shrinks hshrinks

theorem lookup_of_erase {V : Type} {m : HashMap Str V} {callId id : Str} {v : V}
    (h : (m.erase callId).lookup id = some v) : m.lookup id = some v := by
  by_cases hid : id = callId
  · subst hid
    rw [AList.lookup_erase] at h
    cases h
  · rwa [AList.lookup_erase_ne hid] at h

variable {s : Router}

theorem inv_withoutPending (h : Inv s) (callId : Str) : Inv (withoutPending callId s) :=
  h.shrinks (shrinks_withoutPending callId s) fun _ _ hitem => lookup_of_erase hitem

variable {outputs : List Output} {action : CostCheckedAction}

theorem inv_cleared {s s' : Router}
    (h : Inv s) (hcleared : Cleared action s outputs s') : Inv s' ∧ Shrinks s s' := by
  cases hcleared with
  | kept => exact ⟨h, Shrinks.refl s⟩
  | free => exact ⟨inv_withoutPending h _, shrinks_withoutPending _ s⟩
  | cancelled => exact ⟨inv_withoutPending h _, shrinks_withoutPending _ s⟩

theorem routes_of_cleared {s s₁ : Router}
    (h : Cleared action s outputs s₁) : s₁.routes = s.routes := by
  cases h with
  | kept => rfl
  | free => rfl
  | cancelled => rfl

variable {kind : AccessPathKind} {event : OperatorEvent}

theorem isStart_of_event (h : action = .event kind event) : action.isStart = false := by
  rw [h]
  rfl

theorem owner_of_routed (howner : (ownerOf callId s).any (· ≠ kind) = false)
    (hroute : s.routes.lookup callId = some route) : route.owner = kind := by
  rwa [ownerOf, hroute, map_some, some_or, any_some, decide_eq_false_iff_not, not_not] at howner

variable {env : Env} {d : Option Dispatch}

theorem inv_owned {s s' : Router} (h : Inv s)
    (howner : ∀ kind event route, action = .event kind event →
      s.routes.lookup event.callId = some route → route.owner = kind)
    (howned : Owned env action s outputs s' d) :
    Inv s' ∧ Shrinks s s' ∧ ∀ go, d = some go → go.action = action ∧ Ready s' go := by
  cases howned with
  | repeated => exact ⟨h, Shrinks.refl s, fun _ h => by cases h⟩
  | stale kind event item heq =>
    have hshrinks := (shrinks_withoutPending action.callId s).trans
      (shrinks_withoutRemaining action.callId (withoutPending action.callId s))
    refine ⟨h.shrinks hshrinks fun _ _ hitem => lookup_of_erase hitem, hshrinks, ?_⟩
    rintro go ⟨⟩
    refine ⟨rfl, fun hstart => ?_, fun _ => AList.lookup_erase ..⟩
    rw [isStart_of_event heq] at hstart
    cases hstart
  | full =>
    have hrejected := env.rejectCostChecked_rejected action s
    exact ⟨h.shrinks hrejected.shrinks fun _ _ hitem => hrejected.pending ▸ hitem,
      hrejected.shrinks, fun _ h => by cases h⟩
  | waits hguarded hobserved hneeds hfree hnew =>
    have hshrinks : Shrinks s (spawnAdmission action 2 s) := .of_same rfl rfl rfl
    refine ⟨⟨hshrinks.keyed h.keyed, h.routes, fun id item hitem => ?_⟩, hshrinks,
      fun _ h => by cases h⟩
    by_cases hid : id = action.callId
    · subst hid
      have hinserted : (spawnAdmission action 2 s).pending.lookup action.callId = some _ :=
        AList.lookup_insert ..
      obtain rfl := some.inj (hinserted.symm.trans hitem)
      refine ⟨rfl, hneeds, hnew, rfl, ?_⟩
      rintro kind event route rfl - hroute
      exact howner kind event route rfl hroute
    · have hkept : (spawnAdmission action 2 s).pending.lookup id = s.pending.lookup id :=
        AList.lookup_insert_ne hid
      exact (h.pending id item (hkept ▸ hitem)).shrinks hshrinks
  | goesOn hfree hnew =>
    refine ⟨h, Shrinks.refl s, ?_⟩
    rintro go ⟨⟩
    exact ⟨rfl, hnew, hfree⟩

variable {input : Input}

/-- A turn keeps the invariant, up to the action that goes on. -/
theorem inv_turn {s s' : Router} (h : Inv s) (hturn : Turn env s input outputs s' d) :
    Inv s' ∧ Shrinks s s' ∧ ∀ go, d = some go → Ready s' go := by
  cases hturn with
  | idle | closed | evidence | foreign =>
    exact ⟨h, Shrinks.refl s, fun _ h => by cases h⟩
  | lagged =>
    have hrejected := env.rejectPending_rejected s
    have hempty : Shrinks s { s with pending := ∅ } := .of_same rfl rfl rfl
    have hshrinks : Shrinks s (env.rejectPending s).2 := hempty.trans hrejected.shrinks
    refine ⟨h.shrinks hshrinks fun id item hitem => ?_, hshrinks, fun _ h => by cases h⟩
    rw [hrejected.pending] at hitem
    cases hitem
  | unmatched index result =>
    have hshrinks : Shrinks s { s with admissions := s.admissions.eraseIdx index } :=
      .of_same rfl rfl rfl
    exact ⟨h.shrinks hshrinks fun _ _ hitem => hitem, hshrinks, fun _ h => by cases h⟩
  | resumed index admission item home checkedAt hran hwaits =>
    have hshrinks : Shrinks s { withoutPending admission.callId s with
        admissions := s.admissions.eraseIdx index } := .of_same rfl rfl rfl
    refine ⟨h.shrinks hshrinks fun _ _ hitem => lookup_of_erase hitem, hshrinks, ?_⟩
    rintro go ⟨⟩
    have hitem := h.pending _ _ hwaits
    refine ⟨fun hstart => ?_, fun _ => ?_⟩
    · dsimp only at hstart ⊢
      rw [hitem.named]
      exact hitem.new hstart
    · dsimp only
      rw [hitem.named]
      exact AList.lookup_erase ..
  | owned input action changed outputs s₁ outputs₁ s₂ d htaken howner hchange hcleared howned =>
    obtain ⟨h₁, hshrinks₁⟩ := inv_cleared h hcleared
    obtain ⟨h₂, hshrinks₂, hready⟩ := inv_owned h₁ (fun kind event route hevent hroute =>
      owner_of_routed (howner kind event hevent) (routes_of_cleared hcleared ▸ hroute)) howned
    exact ⟨h₂, hshrinks₁.trans hshrinks₂, fun go hgo => (hready go hgo).2⟩

/-! ## The action that goes on -/

/-- What a route may become while the call goes on. -/
structure Advances (route route' : CallRoute) : Prop where
  rank : route.owner.rank ≤ route'.owner.rank
  answered : route.start = none → route'.start = none

theorem Advances.refl (route : CallRoute) : Advances route route := ⟨le_rfl, fun h => h⟩

theorem Advances.trans {r r' r'' : CallRoute} (h : Advances r r') (h' : Advances r' r'') :
    Advances r r'' :=
  ⟨h.rank.trans h'.rank, fun hnone => h'.answered (h.answered hnone)⟩

theorem commandFor_eq_some {plan : VoiceCallPlan}
    {command : OperatorCommand} (h : plan.commandFor kind = some command) :
    command.callId = plan.callId ∧ command.isStart = true := by
  obtain ⟨offer, -, rfl⟩ := map_eq_some_iff.mp h
  exact ⟨rfl, rfl⟩

variable {leg : Leg} {onlyWifi : Bool}

/-- A route with a candidate, which comes after the owner. -/
theorem RouteOk.of_among {remaining : List AccessPathKind} (h : RouteOk callId route)
    (hsub : remaining = [] ∨ remaining = route.remaining)
    (hamong : leg.Among (fun next => (route.startPlan.bind (·.commandFor next)).or route.start)
      (env.failoverEligible onlyWifi) remaining) :
    route.start.isSome = true ∧ route.owner.rank < leg.kind.rank ∧
      leg.command.callId = callId ∧ leg.command.isStart = true ∧
      (leg.kind :: leg.remaining).Pairwise (·.rank < ·.rank) := by
  obtain ⟨front, hsplit⟩ := hamong.split
  have hremaining : route.remaining = front ++ leg.kind :: leg.remaining := by
    rcases hsub with hnil | hsame
    · rw [hnil] at hsplit
      cases front with
      | nil => cases hsplit
      | cons kind front => cases hsplit
    · rw [← hsame, hsplit]
  have hranks := h.ranks
  rw [hremaining, pairwise_cons] at hranks
  have hsome : route.start.isSome = true := h.started (by rw [hremaining]; simp)
  have hcommand : leg.command.callId = callId ∧ leg.command.isStart = true := by
    have hleg := hamong.command
    cases hplanned : route.startPlan.bind (·.commandFor leg.kind) with
    | none =>
      rw [hplanned, none_or] at hleg
      exact h.start _ hleg
    | some command =>
      rw [hplanned, some_or] at hleg
      obtain rfl := some.inj hleg
      obtain ⟨plan, hplan, hcommand⟩ := bind_eq_some_iff.mp hplanned
      obtain ⟨hnamed, hstart⟩ := commandFor_eq_some hcommand
      exact ⟨hnamed.trans (h.plan plan hplan), hstart⟩
  exact ⟨hsome, hranks.1 leg.kind (by simp), hcommand.1, hcommand.2,
    (pairwise_append.mp hranks.2).2.1⟩

/-- The route that a start has made. -/
theorem routeOk_of_start {videoRequired : Bool}
    {commandFor : AccessPathKind → Option OperatorCommand}
    (hamong : leg.Among commandFor (startEligible onlyWifi) (env.routePlan videoRequired))
    (hcommand : leg.command.callId = callId ∧ leg.command.isStart = true)
    {plan : Option VoiceCallPlan} (hplan : ∀ p, plan = some p → p.callId = callId) :
    RouteOk callId (leg.route plan) := by
  obtain ⟨front, hsplit⟩ := hamong.split
  have hranks : (env.routePlan videoRequired).Pairwise (·.rank < ·.rank) := candidates_pairwise _ _
  rw [hsplit] at hranks
  refine ⟨(pairwise_append.mp hranks).2.1, fun _ => rfl, ?_, hplan⟩
  rintro command ⟨⟩
  exact hcommand

/-- The generation that is noted for a leg that gets a call. -/
def generationOf (env : Env) (kind : AccessPathKind) : ℕ :=
  ((env.backend kind).map (·.link.accessGeneration)).getD 0

theorem Leg.Live.generationOf (h : leg.Live env) : leg.generation = env.generationOf leg.kind := by
  obtain ⟨backend, hbackend, hsame⟩ := (Option.any_eq_true _ _).mp h.generation
  rw [Env.generationOf, hbackend]
  exact (beq_iff_eq.mp hsame).symm

/-- What an action leaves of the route of its call. -/
structure Leaves (env : Env) (action : CostCheckedAction) (callId : Str)
    (before after : Option CallRoute) : Prop where
  ok : ∀ route, after = some route → RouteOk callId route
  advances : ∀ route route', before = some route → after = some route' →
    action.isStart = true ∨ Advances route route'
  /-- The leg is the one of before, or it has got the call in its present generation. -/
  recorded : ∀ route', after = some route' →
    (∃ route, before = some route ∧ route.owner = route'.owner ∧
      route.accessGeneration = route'.accessGeneration) ∨
    action.needsAdmission = true ∧ route'.accessGeneration = env.generationOf route'.owner

theorem Effect.leaves {before after : Option CallRoute}
    (h : Effect env onlyWifi action before outputs after)
    (hok : ∀ route, before = some route → RouteOk action.callId route) :
    Leaves env action action.callId before after := by
  have hsame : Leaves env action action.callId before before := by
    refine ⟨hok, fun route route' h h' => .inr ?_, fun route h => .inl ⟨route, h, rfl, rfl⟩⟩
    obtain rfl := some.inj (h.symm.trans h')
    exact Advances.refl route
  have hgone : Leaves env action action.callId before none :=
    ⟨fun _ h => (by cases h), fun _ _ _ h => (by cases h), fun _ h => by cases h⟩
  cases h with
  | abandoned | notPlanned | notStarted | forbidden | ignored => exact hsame
  | withdrawn | outdated | notAccepted | lost | unrouted => exact hgone
  | planned plan response route leg live among =>
    refine ⟨?_, fun _ _ _ _ => .inl rfl, ?_⟩
    rotate_left
    · rintro route' ⟨⟩
      exact .inr ⟨rfl, live.generationOf⟩
    rintro route' ⟨⟩
    refine routeOk_of_start among (commandFor_eq_some among.command) ?_
    rintro p ⟨⟩
    rfl
  | started command caller callee route start leg live among =>
    refine ⟨?_, fun _ _ _ _ => .inl start, ?_⟩
    rotate_left
    · rintro route' ⟨⟩
      exact .inr ⟨needsAdmission_of_isStart start, live.generationOf⟩
    rintro route' ⟨⟩
    obtain rfl := some.inj among.command
    exact routeOk_of_start among ⟨rfl, start⟩ fun _ h => by cases h
  | delivered command route =>
    cases hterminal : command.isTerminal with
    | true => exact hgone
    | false => exact hsame
  | undelivered command route =>
    cases hterminal : command.isTerminal with
    | true => exact hgone
    | false => exact hsame
  | incoming kind event incoming =>
    refine ⟨?_, fun _ _ h => (by cases h), ?_⟩
    · rintro route' ⟨⟩
      exact ⟨pairwise_singleton _ _, fun hne => absurd rfl hne, fun _ h => (by cases h),
        fun _ h => by cases h⟩
    · rintro route' ⟨⟩
      rw [CostCheckedAction.needsAdmission, incoming, Bool.true_or]
      exact .inr ⟨rfl, rfl⟩
  | failedOver event route unavailable leg live remaining sub among =>
    have hroute := hok route rfl
    obtain ⟨hsome, hrank, hcommand, hstart, hranks⟩ := hroute.of_among sub among
    refine ⟨?_, ?_, ?_⟩
    · rintro route' ⟨⟩
      refine ⟨hranks, fun _ => rfl, ?_, hroute.plan⟩
      rintro command ⟨⟩
      exact ⟨hcommand, hstart⟩
    · rintro r r' ⟨⟩ ⟨⟩
      refine .inr ⟨hrank.le, fun hnone => ?_⟩
      rw [hnone] at hsome
      cases hsome
    · rintro route' ⟨⟩
      rw [CostCheckedAction.needsAdmission, unavailable, Bool.or_true]
      exact .inr ⟨rfl, live.generationOf⟩
  | forwarded event route incoming =>
    cases hterminal : event.isTerminal with
    | true => exact hgone
    | false =>
      cases hanswer : event.isAnswer with
      | false => exact hsame
      | true =>
        refine ⟨?_, ?_, ?_⟩
        · rintro route' ⟨⟩
          exact ⟨pairwise_singleton _ _, fun hne => absurd rfl hne, fun _ h => (by cases h),
            fun _ h => by cases h⟩
        · rintro r r' ⟨⟩ ⟨⟩
          exact .inr ⟨le_rfl, fun _ => rfl⟩
        · rintro route' ⟨⟩
          exact .inl ⟨route, rfl, rfl, rfl⟩

theorem inv_dispatched {s s' : Router} {d : Dispatch}
    (h : Inv s) (hready : Ready s d) (hd : Dispatched env d s outputs s') :
    Inv s' ∧ ∀ id route route', s.routes.lookup id = some route →
      s'.routes.lookup id = some route' → Advances route route' := by
  have hleaves := hd.effect.leaves fun route hroute => h.routes _ route hroute
  refine ⟨⟨⟨fun id => ?_, fun id => ?_⟩, fun id route hroute => ?_, fun id item hitem => ?_⟩, ?_⟩
  · rw [hd.settled.modes]
    split
    next => exact isSome_map
    next hid => rw [h.keyed.modes, hd.elsewhere id hid]
  · rw [hd.settled.startModes]
    split
    next =>
      cases hroute : s'.routes.lookup id with
      | none => rfl
      | some route =>
        rw [bind_some]
        split
        next hrouted => rw [h.keyed.startModes, hrouted, isSome_some]
        next => rfl
    next hid => rw [h.keyed.startModes, hd.elsewhere id hid]
  · by_cases hid : id = d.action.callId
    · subst hid
      exact hleaves.ok route hroute
    · exact h.routes id route (hd.elsewhere id hid ▸ hroute)
  · rw [hd.settled.pending] at hitem
    have hwaits := h.pending id item hitem
    -- an action that gives the call to a leg does so only while no other waits
    have hkept : ∀ route', s'.routes.lookup id = some route' →
        ∃ route, s.routes.lookup id = some route ∧ route.owner = route'.owner := by
      intro route' hroute'
      by_cases hid : id = d.action.callId
      · subst hid
        rcases hleaves.recorded route' hroute' with ⟨route, hroute, howner, -⟩ | ⟨hneeds, -⟩
        · exact ⟨route, hroute, howner⟩
        · rw [hready.free hneeds] at hitem
          cases hitem
      · exact ⟨route', hd.elsewhere id hid ▸ hroute', rfl⟩
    refine ⟨hwaits.named, hwaits.needs, fun hstart => ?_, hwaits.initial,
      fun kind event route' hevent hunavailable hroute' => ?_⟩
    · cases hroute' : s'.routes.lookup id with
      | none => rfl
      | some route' =>
        obtain ⟨route, hroute, -⟩ := hkept route' hroute'
        rw [hwaits.new hstart] at hroute
        cases hroute
    · obtain ⟨route, hroute, howner⟩ := hkept route' hroute'
      exact howner ▸ hwaits.owner kind event route hevent hunavailable hroute
  · intro id route route' hroute hroute'
    by_cases hid : id = d.action.callId
    · subst hid
      refine (hleaves.advances route route' hroute hroute').resolve_left fun hstart => ?_
      rw [hready.new hstart] at hroute
      cases hroute
    · rw [hd.elsewhere id hid, hroute] at hroute'
      obtain rfl := some.inj hroute'
      exact Advances.refl route

/-! ## Steps -/

/-- The state when the turn is counted. -/
def counted (s : Router) : Router := { s with steps := s.steps + 1 }

theorem inv_counted (h : Inv s) : Inv (counted s) :=
  ⟨⟨h.keyed.modes, h.keyed.startModes⟩, h.routes, fun id item hitem =>
    (h.pending id item hitem).shrinks (.of_same rfl rfl rfl)⟩

/-- A step is a turn, and what the action does that goes on. -/
inductive Stepped (s : Router) (x : Env × Input) : List Output → Router → Prop where
  | rested (outputs s₁) (turn : Turn x.1 s x.2 outputs s₁ none) :
    Stepped s x outputs (counted s₁)
  | went (outputs s₁ d more s₂) (turn : Turn x.1 s x.2 outputs s₁ (some d)) (inv : Inv s₁)
      (ready : Ready s₁ d) (dispatched : Dispatched x.1 d s₁ more s₂)
      (goesOn : (x.1.receive x.2 s).2.2 = some d) :
    Stepped s x (outputs ++ more) (counted s₂)

theorem step_stepped (h : Inv s) (x : Env × Input) : Stepped s x (s.step x).1 (s.step x).2 := by
  have hturn := x.1.receive_turn x.2 s
  obtain ⟨hinv, -, hready⟩ := inv_turn h hturn
  unfold step
  generalize hadmitted : x.1.receive x.2 s = admitted at hturn hinv hready
  obtain ⟨outputs, s₁, d⟩ := admitted
  cases d with
  | none =>
    dsimp only
    rw [append_nil]
    exact .rested outputs s₁ hturn
  | some d =>
    have hgo := hready d rfl
    exact .went outputs s₁ d _ _ hturn hinv hgo
      (dispatchCostChecked_effect hinv.keyed hgo.new) (by rw [hadmitted])

/-- A turn from which an action goes on takes no route away. -/
theorem routes_of_turn {s s₁ : Router} {d : Dispatch} (h : Turn env s input outputs s₁ (some d)) :
    s₁.routes = s.routes ∨ d.action.isUnavailable = true ∧
      s₁.routes = (withoutRemaining d.action.callId s).routes := by
  cases h with
  | resumed => exact .inl rfl
  | owned input action changed outputs s₀ outputs₁ s₂ d taken owner change cleared owned =>
    have hcleared := routes_of_cleared cleared
    cases owned with
    | stale kind event item heq hunavailable =>
      refine .inr ⟨?_, ?_⟩
      · dsimp only
        rw [heq]
        exact hunavailable
      · unfold withoutRemaining withoutPending
        rw [hcleared]
    | goesOn => exact .inl hcleared

/-- What a step does to the routes that were there. -/
theorem inv_step (h : Inv s) (x : Env × Input) :
    Inv (s.step x).2 ∧ ∀ id route route', s.routes.lookup id = some route →
      (s.step x).2.routes.lookup id = some route' → Advances route route' := by
  have hshrunk : ∀ {s₁ : Router}, Shrinks s s₁ → ∀ id route route₁,
      s.routes.lookup id = some route → s₁.routes.lookup id = some route₁ →
      Advances route route₁ := by
    intro s₁ hshrinks id route route₁ hroute hroute₁
    obtain ⟨route', hroute', heq⟩ := hshrinks.routes id route₁ hroute₁
    obtain rfl := some.inj (hroute.symm.trans hroute')
    rcases heq with rfl | rfl
    · exact Advances.refl _
    · exact ⟨le_rfl, fun h => h⟩
  have hstepped := step_stepped h x
  generalize s.step x = stepped at hstepped
  obtain ⟨outputs', s'⟩ := stepped
  cases hstepped with
  | rested outputs s₁ turn =>
    obtain ⟨hinv, hshrinks, -⟩ := inv_turn h turn
    exact ⟨inv_counted hinv, fun id route route' hroute hroute' =>
      hshrunk hshrinks id route route' hroute hroute'⟩
  | went outputs s₁ d more s₂ turn inv ready dispatched =>
    obtain ⟨-, hshrinks, -⟩ := inv_turn h turn
    obtain ⟨hinv, hadvances⟩ := inv_dispatched inv ready dispatched
    refine ⟨inv_counted hinv, fun id route route' hroute hroute' => ?_⟩
    obtain ⟨route₁, hroute₁⟩ : ∃ route₁, s₁.routes.lookup id = some route₁ := by
      rcases routes_of_turn turn with hsame | ⟨-, hcleared⟩
      · exact ⟨route, hsame ▸ hroute⟩
      · rw [hcleared, lookup_withoutRemaining, hroute]
        split
        next => exact ⟨_, rfl⟩
        next => exact ⟨_, rfl⟩
    exact (hshrunk hshrinks id route route₁ hroute hroute₁).trans
      (hadvances id route₁ route' hroute₁ hroute')

theorem inv_after (run : List (Env × Input)) : Inv (after run) :=
  run_invariant step inv_start (fun _ x h => (inv_step h x).1) run

variable {id : Str}

/-- As long as a call has its route, the route advances. -/
theorem advances_or_gone (h : Inv s)
    (hroute : s.routes.lookup id = some route) (mid : List (Env × Input)) :
    (∃ front back, mid = front ++ back ∧ (run step s front).routes.lookup id = none) ∨
    ∃ route', (run step s mid).routes.lookup id = some route' ∧ Advances route route' := by
  induction mid generalizing s route with
  | nil => exact .inr ⟨route, hroute, Advances.refl route⟩
  | cons x mid ih =>
    obtain ⟨hinv, hadvances⟩ := inv_step h x
    cases hnext : (s.step x).2.routes.lookup id with
    | none => exact .inl ⟨[x], mid, rfl, hnext⟩
    | some next =>
      have hadvance := hadvances id route next hroute hnext
      rcases ih hinv hnext with ⟨front, back, rfl, hgone⟩ | ⟨route', hroute', hadvance'⟩
      · exact .inl ⟨x :: front, back, rfl, hgone⟩
      · exact .inr ⟨route', hroute', hadvance.trans hadvance'⟩

/-! ## Where an action comes from -/

/-- An action that goes on was taken in now, or has waited. -/
theorem action_of_turn {s s₁ : Router}
    {d : Dispatch} (hinv : Inv s) (h : Turn env s input outputs s₁ (some d)) :
    input.action = some d.action ∨
      ∃ item, s.pending.lookup d.action.callId = some item ∧ item.action = d.action := by
  cases h with
  | resumed index admission item home checkedAt hran hwaits =>
    refine .inr ⟨item, ?_, rfl⟩
    rwa [(hinv.pending _ _ hwaits).named]
  | owned input action changed outputs s₀ outputs₁ s₂ d taken owner change cleared owned =>
    refine .inl ?_
    cases owned with
    | stale => exact taken
    | goesOn => exact taken

theorem modes_of_cleared {s s₁ : Router}
    (h : Cleared action s outputs s₁) : s₁.modes = s.modes ∧ s₁.startModes = s.startModes := by
  cases h with
  | kept => exact ⟨rfl, rfl⟩
  | free => exact ⟨rfl, rfl⟩
  | cancelled => exact ⟨rfl, rfl⟩

theorem requestedMode_congr {s s₁ : Router} (h : s₁.modes = s.modes) (action : CostCheckedAction) :
    requestedMode action s₁ = requestedMode action s := by
  unfold requestedMode
  rw [h]

theorem initialMode_of_cleared (env : Env) {s s₁ : Router} (h : Cleared action s outputs s₁) :
    env.initialMode action s₁ = combinedMode env.gateMode (requestedMode action s) := by
  rw [initialMode, requestedMode_congr (modes_of_cleared h).1]

/-- The action that has begun to wait in this step. -/
structure Begins (s : Router) (input : Input) (item : PendingAdmission) : Prop where
  taken : input.action = some item.action
  receivedAt : item.receivedAt = s.steps
  guarded : ∃ gate, combinedMode gate (requestedMode item.action s) = 2
  /-- A leg that has lost a call is the owner of the call. -/
  owner : ∀ kind event, item.action = .event kind event → event.isUnavailable = true →
    ∃ route, s.routes.lookup event.callId = some route ∧ route.owner = kind

theorem pending_of_cleared {s s₁ : Router} (h : Cleared action s outputs s₁)
    (hitem : s₁.pending.lookup id = some item) : s.pending.lookup id = some item := by
  cases h with
  | kept => exact hitem
  | free => exact lookup_of_erase hitem
  | cancelled => exact lookup_of_erase hitem

theorem owner_of_observed (hobserved : env.needsHomeObservation (.event kind event) s.routes = true)
    (hunavailable : event.isUnavailable = true)
    (howner : (ownerOf event.callId s).any (· ≠ kind) = false) :
    ∃ route, s.routes.lookup event.callId = some route ∧ route.owner = kind := by
  have hincoming : event.isIncoming = false := by
    cases event <;> first | rfl | cases hunavailable
  unfold needsHomeObservation at hobserved
  rw [Bool.and_eq_true] at hobserved
  obtain ⟨-, hfirst⟩ := hobserved
  dsimp only at hfirst
  rw [hincoming, if_neg (by decide)] at hfirst
  cases hroute : s.routes.lookup event.callId with
  | none =>
    rw [hroute] at hfirst
    cases hfirst
  | some route => exact ⟨route, rfl, owner_of_routed howner hroute⟩

theorem pending_of_turn {s s₁ : Router} (h : Turn env s input outputs s₁ d)
    (hitem : s₁.pending.lookup id = some item) :
    s.pending.lookup id = some item ∨ Begins s input item := by
  cases h with
  | idle | closed | evidence | foreign | unmatched => exact .inl hitem
  | lagged =>
    rw [(env.rejectPending_rejected s).pending] at hitem
    cases hitem
  | resumed => exact .inl (lookup_of_erase hitem)
  | owned input action changed outputs s₀ outputs₁ s₂ d taken owner change cleared owned =>
    cases owned with
    | repeated | goesOn => exact .inl (pending_of_cleared cleared hitem)
    | stale => exact .inl (pending_of_cleared cleared (lookup_of_erase hitem))
    | full =>
      rw [(env.rejectCostChecked_rejected action s₀).pending] at hitem
      exact .inl (pending_of_cleared cleared hitem)
    | waits guarded observed needs free new =>
      by_cases hid : id = action.callId
      · subst hid
        have hinserted : (spawnAdmission action 2 s₀).pending.lookup action.callId = some _ :=
          AList.lookup_insert ..
        obtain rfl := some.inj (hinserted.symm.trans hitem)
        refine .inr ⟨taken, ?_, ⟨env.gateMode, ?_⟩, ?_⟩
        · cases cleared with
          | kept => rfl
          | free => rfl
          | cancelled => rfl
        · exact (initialMode_of_cleared env cleared).symm.trans guarded
        · rintro kind event rfl hunavailable
          rw [routes_of_cleared cleared] at observed
          exact owner_of_observed observed hunavailable (owner kind event rfl)
      · have hkept : (spawnAdmission action 2 s₀).pending.lookup id = s₀.pending.lookup id :=
          AList.lookup_insert_ne hid
        exact .inl (pending_of_cleared cleared (hkept ▸ hitem))

/-- The action was taken in at the step that is noted, and has waited since. -/
def Received (run : List (Env × Input)) (id : Str) (item : PendingAdmission) : Prop :=
  ∃ earlier x later, run = earlier ++ x :: later ∧ item.receivedAt = earlier.length ∧
    Begins (after earlier) x.2 item ∧
    ∀ first rest, later = first ++ rest →
      (after (earlier ++ x :: first)).pending.lookup id = some item

theorem steps_of_turn {s s₁ : Router} (h : Turn env s input outputs s₁ d) : s₁.steps = s.steps := by
  cases h with
  | idle | closed | evidence | foreign | unmatched | resumed => rfl
  | lagged => exact (env.rejectPending_rejected s).steps
  | owned input action changed outputs s₀ outputs₁ s₂ d taken owner change cleared owned =>
    have hcleared : s₀.steps = s.steps := by
      cases cleared with
      | kept => rfl
      | free => rfl
      | cancelled => rfl
    cases owned with
    | repeated | goesOn | stale | waits => exact hcleared
    | full => exact (env.rejectCostChecked_rejected action s₀).steps.trans hcleared

theorem pending_of_step (h : Inv s) (x : Env × Input)
    (hitem : (s.step x).2.pending.lookup id = some item) :
    s.pending.lookup id = some item ∨ Begins s x.2 item := by
  have hstepped := step_stepped h x
  generalize s.step x = stepped at hstepped hitem
  obtain ⟨outputs', s'⟩ := stepped
  cases hstepped with
  | rested outputs s₁ turn => exact pending_of_turn turn hitem
  | went outputs s₁ d more s₂ turn inv ready dispatched =>
    have hsame : s₂.pending = s₁.pending := dispatched.settled.pending
    exact pending_of_turn turn (hsame ▸ hitem)

theorem steps_step (h : Inv s) (x : Env × Input) : (s.step x).2.steps = s.steps + 1 := by
  have hstepped := step_stepped h x
  generalize s.step x = stepped at hstepped
  obtain ⟨outputs', s'⟩ := stepped
  cases hstepped with
  | rested outputs s₁ turn => exact congrArg (· + 1) (steps_of_turn turn)
  | went outputs s₁ d more s₂ turn inv ready dispatched =>
    exact congrArg (· + 1) (dispatched.settled.steps.trans (steps_of_turn turn))

variable (run : List (Env × Input))
include run

theorem after_concat (x : Env × Input) :
    after (run ++ [x]) = ((after run).step x).2 := run_concat _ _ _ _

theorem steps_after : (after run).steps = run.length := by
  induction run using reverseRecOn with
  | nil => rfl
  | append_singleton run x ih =>
    rw [after_concat, steps_step (inv_after run), ih, length_append, length_singleton]

theorem received_after : ∀ id item,
    (after run).pending.lookup id = some item → Received run id item := by
  induction run using reverseRecOn with
  | nil => exact fun _ _ h => by cases h
  | append_singleton run x ih =>
    intro id item hitem
    have hnow := hitem
    rw [after_concat] at hitem
    rcases pending_of_step (inv_after run) x hitem with hold | hnew
    · obtain ⟨earlier, x₀, later, rfl, hat, hbegins, hwaits⟩ := ih id item hold
      refine ⟨earlier, x₀, later ++ [x], by simp, hat, hbegins, fun first rest hsplit => ?_⟩
      rcases eq_nil_or_concat rest with rfl | ⟨rest, last, rfl⟩
      · rw [append_nil] at hsplit
        rw [← hsplit, ← cons_append, ← append_assoc]
        exact hnow
      · rw [concat_eq_append, ← append_assoc] at hsplit
        exact hwaits first rest (append_inj' hsplit rfl).1
    · refine ⟨run, x, [], rfl, hnew.receivedAt.trans (steps_after run), hnew,
        fun first rest h => ?_⟩
      obtain ⟨rfl, rfl⟩ := append_eq_nil_iff.mp h.symm
      exact hnow

end Env

end SimMaster.Trunk
