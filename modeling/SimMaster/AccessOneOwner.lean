import SimMaster.AccessLegs

/-!
# Every call has one owner

A start goes from one leg to the next only when the first has lost the call. Any other command goes
to the leg that has the call, and only this leg is heard.
-/

namespace SimMaster.Trunk

open Rust List

/-- What the turn after these lets out. -/
def Router.outputs (run : List (Env × Input)) (x : Env × Input) : List Output :=
  ((Router.after run).step x).1

namespace Env

/-! ## The loss of a call -/

/-- The call has this owner after these turns. -/
def Owns (run : List (Env × Input)) (kind : AccessPathKind) (callId : Str) : Prop :=
  ∃ route, (Router.after run).routes.lookup callId = some route ∧ route.owner = kind

/-- A leg says that it has lost the call, in this turn or in an earlier one, and it has been the
owner from there on. -/
def LostBy (run : List (Env × Input)) (x : Env × Input) (kind : AccessPathKind) (callId : Str) :
    Prop :=
  ∃ earlier y later event, run ++ [x] = earlier ++ y :: later ∧
    Prod.snd y = Input.event kind event ∧
    event.isUnavailable = true ∧ event.callId = callId ∧
    ∀ middle rest, run = earlier ++ (middle ++ rest) → Owns (earlier ++ middle) kind callId

variable {s : Router} {id : Str} {item : PendingAdmission} {x : Env × Input}

/-- No route is made while an action waits. -/
theorem routed_while_waiting (h : Inv s) {route' : CallRoute}
    (hwaits : (s.step x).2.pending.lookup id = some item)
    (hroute' : (s.step x).2.routes.lookup id = some route') :
    ∃ route, s.routes.lookup id = some route := by
  have hstepped := step_stepped h x
  generalize s.step x = stepped at hstepped hwaits hroute'
  obtain ⟨outputs', s'⟩ := stepped
  cases hstepped with
  | rested outputs s₁ turn =>
    obtain ⟨route, hroute, -⟩ := (inv_turn h turn).2.1.routes id route' hroute'
    exact ⟨route, hroute⟩
  | went outputs s₁ d more s₂ turn inv ready dispatched =>
    have hearlier : ∀ route₁, s₁.routes.lookup id = some route₁ →
        ∃ route, s.routes.lookup id = some route := fun route₁ hroute₁ => by
      obtain ⟨route, hroute, -⟩ := (inv_turn h turn).2.1.routes id route₁ hroute₁
      exact ⟨route, hroute⟩
    by_cases hid : id = d.action.callId
    · subst hid
      have hleaves := dispatched.effect.leaves fun route hroute => inv.routes _ route hroute
      rcases hleaves.recorded route' hroute' with ⟨route₁, hroute₁, -⟩ | ⟨hneeds, -⟩
      · exact hearlier route₁ hroute₁
      · have hpending : s₁.pending.lookup d.action.callId = some item :=
          dispatched.settled.pending ▸ hwaits
        rw [ready.free hneeds] at hpending
        cases hpending
    · exact hearlier route' (dispatched.elsewhere id hid ▸ hroute')

/-- A call that is there when an action has waited was there all the while. -/
theorem routed_since {earlier : List (Env × Input)} (rest : List (Env × Input)) :
    ∀ {first : List (Env × Input)},
    (∀ a b, first ++ rest = a ++ b →
      (Router.after (earlier ++ x :: a)).pending.lookup id = some item) →
    (∃ route, (Router.after (earlier ++ x :: (first ++ rest))).routes.lookup id = some route) →
    ∃ route, (Router.after (earlier ++ x :: first)).routes.lookup id = some route := by
  -- the induction takes turns off the end
  induction rest using reverseRecOn with
  | nil =>
    intro first _ hend
    rwa [append_nil] at hend
  | append_singleton rest y ih =>
    intro first hwaits ⟨route', hroute'⟩
    have hpending := hwaits (first ++ (rest ++ [y])) [] (append_nil _).symm
    rw [← append_assoc, ← cons_append, ← append_assoc, after_concat]
      at hpending hroute'
    refine ih (fun a b h => hwaits a (b ++ [y]) ?_) ?_
    · rw [← append_assoc, h, append_assoc]
    · exact routed_while_waiting (inv_after _) hpending hroute'

variable {input : Input} {kind : AccessPathKind} {event : OperatorEvent}

theorem input_of_event
    (h : input.action = some (.event kind event)) : input = .event kind event := by
  cases input with
  | event kind' event' =>
    obtain ⟨rfl, rfl⟩ : kind' = kind ∧ event' = event := by simpa [Input.action] using h
    rfl
  | command | commandsLagged | startCall | callAccess | joined | tick => cases h

variable {s₁ : Router} {outputs : List Output}

/-- A leg whose loss of a call goes on as an action has said so while it had the call. -/
theorem lostBy_of_went {run : List (Env × Input)} {s' : Router}
    {more : List Output} {d : Dispatch} (h : Went (Router.after run) x outputs s₁ d more s')
    (haction : d.action = .event kind event)
    (hunavailable : event.isUnavailable = true) (howns : Owns run kind event.callId) :
    LostBy run x kind event.callId := by
  have hinv := inv_after run
  rcases action_of_turn hinv h.turn with hnow | ⟨item, hitem, heq⟩
  · refine ⟨run, x, [], event, rfl, input_of_event (haction ▸ hnow), hunavailable, rfl, ?_⟩
    intro middle rest hsplit
    have hnil : middle ++ rest = [] := self_eq_append_right.mp hsplit
    rw [(append_eq_nil_iff.mp hnil).1, append_nil]
    exact howns
  · rw [haction] at hitem heq
    obtain ⟨earlier, y, later, rfl, -, hbegins, hwaits⟩ := received_after run _ item hitem
    refine ⟨earlier, y, later ++ [x], event, by simp, input_of_event (heq ▸ hbegins.taken),
      hunavailable, rfl, ?_⟩
    intro middle rest hsplit
    rw [append_cancel_left_eq] at hsplit
    cases middle with
    | nil =>
      rw [append_nil]
      exact hbegins.owner kind event heq hunavailable
    | cons z middle =>
      obtain ⟨rfl, rfl⟩ := hsplit
      obtain ⟨route, hroute, -⟩ := howns
      obtain ⟨route', hroute'⟩ := routed_since rest hwaits ⟨route, hroute⟩
      have hitem' := (inv_after _).pending _ item (hwaits middle rest rfl)
      exact ⟨route', hroute', hitem'.owner kind event route' heq hunavailable hroute'⟩

/-! ## One owner -/

/-- What a turn may do with the calls. -/
structure OneOwner (run : List (Env × Input)) (x : Env × Input) : Prop where
  /-- A start goes to a leg for a call that has no route, or after the owner has lost the call
  before it was answered, and then to a leg further on. -/
  starts : ∀ kind command, .sent kind command ∈ Router.outputs run x → command.isStart = true →
    (Router.after run).routes.lookup command.callId = none ∨
      ∃ route, (Router.after run).routes.lookup command.callId = some route ∧
        route.start.isSome = true ∧ route.owner.rank < kind.rank ∧
        LostBy run x route.owner command.callId
  /-- One leg at most gets a start. -/
  once : (Router.outputs run x).countP Output.isStart ≤ 1
  /-- Another command goes to the owner, in the generation in which it got the call; a start is
  taken back at once from the leg that has taken it. -/
  commands : ∀ kind command, .sent kind command ∈ Router.outputs run x → command.isStart = false →
    (∃ route, (Router.after run).routes.lookup command.callId = some route ∧ route.owner = kind ∧
      x.1.generationCurrent route = true) ∨
    command = .cancelCall command.callId ∧
      ∃ leg : Leg, leg.Live x.1 ∧ leg.kind = kind ∧ leg.command.callId = command.callId ∧
        leg.command.isStart = true ∧ .sent kind leg.command ∈ Router.outputs run x
  /-- An incoming call that is not taken is refused to the leg that offers it; one whose acceptance
  fails, to the owner. -/
  refusals : ∀ kind callId, .refused kind callId ∈ Router.outputs run x →
    ∃ action, Acts (Router.after run) x.2 action ∧ action.callId = callId ∧
      action.Refuses (Router.after run).routes kind
  /-- An event comes from the owner, or from a leg that offers a call and becomes its owner. -/
  forwarded : ∀ kind event, .forwarded kind event ∈ Router.outputs run x →
    Acts (Router.after run) x.2 (.event kind event) ∧
      (Owns run kind event.callId ∨
        (Router.after run).routes.lookup event.callId = none ∧ event.isIncoming = true ∧
          Owns (run ++ [x]) kind event.callId)
  /-- An event changes the route of a call only if it comes from such a leg. -/
  changes : ∀ id, (Router.after (run ++ [x])).routes.lookup id ≠
      (Router.after run).routes.lookup id →
    ∃ action, Acts (Router.after run) x.2 action ∧ action.callId = id ∧
      ∀ kind event, action = .event kind event → Owns run kind id ∨
        (Router.after run).routes.lookup id = none ∧ event.isIncoming = true ∧
          Owns (run ++ [x]) kind id
  /-- The generation that counts is the one in which the owner got the call. -/
  recorded : ∀ id route', (Router.after (run ++ [x])).routes.lookup id = some route' →
    (∃ route, (Router.after run).routes.lookup id = some route ∧ route.owner = route'.owner ∧
      route.accessGeneration = route'.accessGeneration) ∨
    route'.accessGeneration = x.1.generationOf route'.owner

section OneOwner

variable (run : List (Env × Input)) (x : Env × Input)

theorem starts_justified (kind : AccessPathKind) (command : OperatorCommand)
    (hsent : .sent kind command ∈ Router.outputs run x) (hstart : command.isStart = true) :
    (Router.after run).routes.lookup command.callId = none ∨
      ∃ route, (Router.after run).routes.lookup command.callId = some route ∧
        route.start.isSome = true ∧ route.owner.rank < kind.rank ∧
        LostBy run x route.owner command.callId := by
  have hinv := inv_after run
  obtain ⟨outputs, s₁, d, more, s', hwent, hmore⟩ := went_of_passes hinv hsent trivial
  cases hwent.dispatched.effect.sends hmore with
  | first leg start live named eligible owner =>
    rw [named.1]
    exact .inl (hwent.before_none (hwent.ready.new start))
  | withdrawn => cases hstart
  | owner _ route action_eq notStart =>
    rw [hstart] at notStart
    cases notStart
  | next event route leg remaining action_eq unavailable before_eq live sub among owner =>
    have hok := hwent.inv.routes _ route before_eq
    obtain ⟨hsome, hrank, hnamed, -, -⟩ := hok.of_among sub among
    obtain ⟨route₀, hroute₀, heq⟩ := hwent.before hinv before_eq
    have hsame : route₀.owner = route.owner ∧ route₀.start = route.start := by
      rcases heq with rfl | rfl
      · exact ⟨rfl, rfl⟩
      · exact ⟨rfl, rfl⟩
    have hcallId : event.callId = d.action.callId := by rw [action_eq]; rfl
    refine .inr ⟨route₀, hnamed ▸ hroute₀, hsame.2 ▸ hsome, hsame.1 ▸ hrank, ?_⟩
    rw [hnamed, hsame.1, ← hcallId]
    exact lostBy_of_went hwent action_eq unavailable ⟨route₀, hcallId ▸ hroute₀, hsame.1⟩

theorem countP_of_silent
    (h : ∀ output ∈ outputs, output.isStart = false) : outputs.countP Output.isStart = 0 := by
  rw [countP_eq_zero]
  exact fun output houtput hstart => Bool.false_ne_true ((h output houtput).symm.trans hstart)

theorem countP_of_not_sent (h : ∀ kind command, .sent kind command ∉ outputs) :
    outputs.countP Output.isStart = 0 := by
  refine countP_of_silent fun output houtput => ?_
  cases output with
  | sent kind command => exact absurd houtput (h kind command)
  | refused | reported | forwarded | responded | dropped | located => rfl

variable {env : Env} {onlyWifi : Bool} {action : CostCheckedAction} {after : Option CallRoute}

theorem Effect.once {before : Option CallRoute}
    (h : Effect env onlyWifi action before outputs after) : outputs.countP Output.isStart ≤ 1 := by
  have hone : ∀ (output : Output) {rest : List Output}, rest.countP Output.isStart = 0 →
      (output :: rest).countP Output.isStart ≤ 1 := by
    intro output rest hrest
    rw [countP_cons, hrest]
    split
    next => exact le_rfl
    next => exact Nat.zero_le 1
  have hnone : ∀ {outputs : List Output}, (∀ kind command, .sent kind command ∉ outputs) →
      outputs.countP Output.isStart ≤ 1 := fun h =>
    (countP_of_not_sent h).trans_le (Nat.zero_le 1)
  cases h with
  | abandoned | notPlanned | notStarted | outdated | forbidden | incoming | lost | forwarded =>
    exact hnone fun _ _ h => by simp at h
  | planned | failedOver => exact hone _ rfl
  | withdrawn => exact hone _ rfl
  | started command caller callee route start leg live among =>
    rw [countP_cons_of_neg fun h => by cases h]
    exact hone _ rfl
  | delivered =>
    exact hone _ (countP_of_not_sent fun _ _ h => sent_not_mem_cancelled h)
  | unrouted =>
    refine hnone fun _ _ h => ?_
    split at h
    next => cases mem_singleton.mp h
    next => cases mem_singleton.mp h
  | notAccepted =>
    refine hnone fun _ _ h => ?_
    rcases mem_append.mp h with h | h
    · exact sent_not_mem_refusals h
    · cases mem_singleton.mp h
  | undelivered =>
    refine hnone fun _ _ h => ?_
    rcases mem_append.mp h with h | h
    · exact sent_not_mem_undelivered h
    · exact sent_not_mem_cancelled h
  | ignored kind event route outputs refusals =>
    exact hnone fun _ _ h => by cases (refusals _ h).1

theorem starts_once : (Router.outputs run x).countP Output.isStart ≤ 1 := by
  have hsilent : ∀ {s₁ : Router} {outputs : List Output},
      (∀ output ∈ outputs, Said (Router.after run) x.2 s₁ output) →
      outputs.countP Output.isStart = 0 := fun hsaid =>
    countP_of_not_sent fun kind command h => not_passes_of_said (hsaid _ h) trivial
  unfold Router.outputs
  have hstepped := step_stepped (inv_after run) x
  generalize (Router.after run).step x = stepped at hstepped
  obtain ⟨outputs', s'⟩ := stepped
  cases hstepped with
  | rested outputs s₁ turn =>
    exact (hsilent fun output h => said_of_turn turn h).trans_le (Nat.zero_le 1)
  | went outputs s₁ d more s₂ turn inv ready dispatched =>
    change (outputs ++ more).countP Output.isStart ≤ 1
    rw [countP_append, hsilent fun output h => said_of_turn turn h, Nat.zero_add]
    exact dispatched.effect.once

theorem commands_owned (kind : AccessPathKind) (command : OperatorCommand)
    (hsent : .sent kind command ∈ Router.outputs run x) (hstart : command.isStart = false) :
    (∃ route, (Router.after run).routes.lookup command.callId = some route ∧ route.owner = kind ∧
      x.1.generationCurrent route = true) ∨ command = .cancelCall command.callId ∧
      ∃ leg : Leg, leg.Live x.1 ∧ leg.kind = kind ∧ leg.command.callId = command.callId ∧
        leg.command.isStart = true ∧ .sent kind leg.command ∈ Router.outputs run x := by
  have hinv := inv_after run
  obtain ⟨outputs, s₁, d, more, s', hwent, hmore⟩ := went_of_passes hinv hsent trivial
  cases hwent.dispatched.effect.sends hmore with
  | first leg start live named eligible owner =>
    rw [named.2] at hstart
    cases hstart
  | next event route leg remaining action_eq unavailable before_eq live sub among owner =>
    rw [((hwent.inv.routes _ route before_eq).of_among sub among).2.2.2.1] at hstart
    cases hstart
  | withdrawn plan response leg action_eq live named start =>
    refine .inr ⟨rfl, leg, live, rfl, named.1, named.2, ?_⟩
    rw [Router.outputs, hwent.outputs_eq]
    exact mem_append_right _ start
  | owner _ route action_eq notStart before_eq current accepts =>
    refine .inl ⟨route, ?_, rfl, current⟩
    rw [action_eq, hwent.before_eq (by rw [action_eq]; rfl)] at before_eq
    exact before_eq

/-- A leg whose incoming call is refused does not have the call. -/
theorem Effect.refusals {routes : Routes}
    (h : Effect env onlyWifi action (routes.lookup action.callId) outputs after) {callId : Str}
    (hrefused : .refused kind callId ∈ outputs) : callId = action.callId ∧
      action.Refuses routes kind ∧ ∀ route, after = some route → route.owner ≠ kind := by
  generalize hbefore : routes.lookup action.callId = before at h
  cases h with
  | abandoned | notPlanned | notStarted | outdated | forbidden | incoming | lost | forwarded |
    planned | withdrawn | started | failedOver => simp at hrefused
  | unrouted =>
    split at hrefused
    next => cases mem_singleton.mp hrefused
    next => cases mem_singleton.mp hrefused
  | ignored kind' event route outputs refusals =>
    obtain ⟨heq, hincoming, howner⟩ := refusals _ hrefused
    obtain ⟨rfl, rfl⟩ : kind = kind' ∧ callId = event.callId := by simpa using heq
    exact ⟨rfl, .inl ⟨event, rfl, hincoming⟩, howner⟩
  | notAccepted command route accept =>
    rcases mem_append.mp hrefused with h | h
    · have heq := refusals_of_reject route.owner command.callId _ h
      obtain ⟨rfl, rfl⟩ : kind = route.owner ∧ callId = command.callId := by simpa using heq
      exact ⟨rfl, .inr ⟨command, route, rfl, accept, hbefore, rfl⟩, fun _ h => by cases h⟩
    · cases mem_singleton.mp h
  | undelivered command route =>
    rcases mem_append.mp hrefused with h | h
    · unfold Env.undelivered at h
      split at h
      next => cases mem_singleton.mp h
      next => cases mem_singleton.mp h
    · split at h
      next => cases mem_singleton.mp h
      next => cases h
  | delivered command route =>
    rcases mem_cons.mp hrefused with h | h
    · cases h
    · split at h
      next => cases mem_singleton.mp h
      next => cases h

theorem refusals_justified (kind : AccessPathKind) (callId : Str)
    (hrefused : .refused kind callId ∈ Router.outputs run x) :
    ∃ action, Acts (Router.after run) x.2 action ∧ action.callId = callId ∧
      action.Refuses (Router.after run).routes kind := by
  have hinv := inv_after run
  have hearly : ∀ {s₁ : Router}, Said (Router.after run) x.2 s₁ (.refused kind callId) →
      ∃ action, Acts (Router.after run) x.2 action ∧ action.callId = callId ∧
        action.Refuses (Router.after run).routes kind := by
    intro s₁ hsaid
    cases hsaid with
    | idle _ hidle => cases hidle
    | refused action _ acts refuses => exact ⟨action, acts, rfl, refuses⟩
  unfold Router.outputs at hrefused
  have hstepped := step_stepped hinv x
  generalize (Router.after run).step x = stepped at hstepped hrefused
  obtain ⟨outputs', s'⟩ := stepped
  cases hstepped with
  | rested outputs s₁ turn => exact hearly (said_of_turn turn hrefused)
  | went outputs s₁ d more s₂ turn inv ready dispatched =>
    rcases mem_append.mp hrefused with h | h
    · exact hearly (said_of_turn turn h)
    · obtain ⟨hcall, hrefuses, -⟩ := dispatched.effect.refusals h
      refine ⟨d.action, (action_of_turn hinv turn).imp_right fun ⟨item, hitem, heq⟩ =>
        ⟨_, item, hitem, heq⟩, hcall.symm, ?_⟩
      exact refuses_of_shrinks (inv_turn hinv turn).2.1 hrefuses

theorem forwarded_owned (kind : AccessPathKind) (event : OperatorEvent)
    (hforwarded : .forwarded kind event ∈ Router.outputs run x) :
    Acts (Router.after run) x.2 (.event kind event) ∧ (Owns run kind event.callId ∨
        (Router.after run).routes.lookup event.callId = none ∧ event.isIncoming = true ∧
          Owns (run ++ [x]) kind event.callId) := by
  have hinv := inv_after run
  obtain ⟨outputs, s₁, d, more, s', hwent, hmore⟩ := went_of_passes hinv hforwarded trivial
  have hacts := hwent.acts hinv
  have hcallId : d.action = .event kind event → d.action.callId = event.callId := fun h => by
    rw [h]
    rfl
  cases hwent.dispatched.effect.forwards hmore with
  | owner route action_eq before_eq owner ended answered =>
    rw [hcallId action_eq] at before_eq
    obtain ⟨route₀, hroute₀, heq⟩ := hwent.before hinv before_eq
    refine ⟨action_eq ▸ hacts, .inl ⟨route₀, hroute₀, ?_⟩⟩
    rcases heq with rfl | rfl
    · exact owner
    · exact owner
  | incoming route' action_eq incoming before_eq after_eq owner =>
    rw [hcallId action_eq] at before_eq after_eq
    refine ⟨action_eq ▸ hacts, .inr ⟨hwent.before_none before_eq, incoming, route', ?_, owner⟩⟩
    rw [after_concat, hwent.state_eq]
    exact after_eq

/-- What is turned away or put off changes the routes only for the owner. -/
theorem changes_of_turn
    {d : Option Dispatch} (hinv : Inv s) (h : Turn env s input outputs s₁ d) (id : Str) :
    s₁.routes.lookup id = s.routes.lookup id ∨ ∃ action, Acts s input action ∧ action.callId = id ∧
        ∀ kind event, action = .event kind event →
          ∃ route, s.routes.lookup id = some route ∧ route.owner = kind := by
  have hrouted : s₁.routes.lookup id ≠ s.routes.lookup id → s₁.routes.lookup id = none →
      ∃ route, s.routes.lookup id = some route := by
    intro hne hnone
    rw [hnone] at hne
    exact Option.ne_none_iff_exists'.mp hne.symm
  rw [or_iff_not_imp_left]
  intro hchanged
  cases h with
  | idle | closed | evidence | foreign | unmatched | resumed => exact absurd rfl hchanged
  | lagged =>
    rcases (env.rejectPending_rejected s).erased id with hsame | ⟨hnone, item, hitem, hid, hends⟩
    · exact absurd hsame hchanged
    · obtain ⟨id', hid'⟩ := mem_waiting.mp hitem
      refine ⟨item.action, .inr ⟨id', item, hid', rfl⟩, hid, fun kind event hevent => ?_⟩
      obtain ⟨route, hroute⟩ := hrouted hchanged hnone
      have hwaits := hinv.pending id' item hid'
      have hunavailable : event.isUnavailable = true := by
        have hneeds := hwaits.needs
        rwa [hevent, CostCheckedAction.needsAdmission, hends kind event hevent, Bool.false_or]
          at hneeds
      obtain rfl : id' = id := hwaits.named.symm.trans hid
      exact ⟨route, hroute, hwaits.owner kind event route hevent hunavailable hroute⟩
  | owned input action changed outputs s₀ outputs₁ s₂ d taken owner change cleared owned =>
    have hcleared := routes_of_cleared cleared
    have hfits : ∀ kind event, action = .event kind event → ∀ route,
        s.routes.lookup action.callId = some route → route.owner = kind := by
      rintro kind event rfl route hroute
      exact owner_of_routed (owner kind event rfl) hroute
    cases owned with
    | repeated => exact absurd (by rw [hcleared]) hchanged
    | waits => exact absurd (by rw [← hcleared]; rfl) hchanged
    | goesOn => exact absurd (by rw [hcleared]) hchanged
    | stale kind event item heq unavailable waits =>
      rw [lookup_withoutRemaining] at hchanged
      have hsame : (withoutPending action.callId s₀).routes = s.routes := hcleared
      rw [hsame] at hchanged
      split at hchanged
      next hid =>
        subst hid
        refine ⟨action, .inl taken, rfl, fun kind' event' hevent => ?_⟩
        cases hroute : s.routes.lookup action.callId with
        | none =>
          rw [hroute] at hchanged
          exact absurd rfl hchanged
        | some route => exact ⟨route, rfl, hfits kind' event' hevent route hroute⟩
      next => exact absurd rfl hchanged
    | full =>
      have hrejected := env.rejectCostChecked_rejected action s₀
      rcases hrejected.erased with hsame | ⟨herased, -⟩
      · exact absurd (by rw [hsame, hcleared]) hchanged
      · by_cases hid : id = action.callId
        · subst hid
          refine ⟨action, .inl taken, rfl, fun kind event hevent => ?_⟩
          obtain ⟨route, hroute⟩ := hrouted hchanged (by
            rw [herased]
            exact AList.lookup_erase ..)
          exact ⟨route, hroute, hfits kind event hevent route hroute⟩
        · refine absurd ?_ hchanged
          rw [herased, AList.lookup_erase_ne hid, hcleared]

theorem changes_owned (id : Str)
    (hchanged :
      (Router.after (run ++ [x])).routes.lookup id ≠ (Router.after run).routes.lookup id) :
    ∃ action, Acts (Router.after run) x.2 action ∧ action.callId = id ∧
      ∀ kind event, action = .event kind event → Owns run kind id ∨
        (Router.after run).routes.lookup id = none ∧ event.isIncoming = true ∧
          Owns (run ++ [x]) kind id := by
  have hinv := inv_after run
  unfold Owns
  rw [after_concat] at hchanged ⊢
  have hstepped := step_stepped hinv x
  generalize (Router.after run).step x = stepped at hstepped hchanged
  obtain ⟨outputs', s'⟩ := stepped
  cases hstepped with
  | rested outputs s₁ turn =>
    obtain ⟨action, hacts, hid, howner⟩ :=
      (changes_of_turn hinv turn id).resolve_left hchanged
    exact ⟨action, hacts, hid, fun kind event hevent => .inl (howner kind event hevent)⟩
  | went outputs s₁ d more s₂ turn inv ready dispatched =>
    rcases changes_of_turn hinv turn id with hsame | ⟨action, hacts, hid, howner⟩
    · have hid : id = d.action.callId := by
        by_contra hid
        exact hchanged ((dispatched.elsewhere id hid).trans hsame)
      subst hid
      rcases dispatched.effect.changes with heq | hentitled
      · exact absurd (heq.trans hsame) hchanged
      · refine ⟨d.action, (action_of_turn hinv turn).imp_right fun ⟨item, hitem, heq⟩ =>
          ⟨_, item, hitem, heq⟩, rfl, fun kind event hevent => ?_⟩
        rw [← hsame]
        exact hentitled kind event hevent
    · exact ⟨action, hacts, hid, fun kind event hevent => .inl (howner kind event hevent)⟩

theorem generation_recorded (id : Str) (route' : CallRoute)
    (hroute' : (Router.after (run ++ [x])).routes.lookup id = some route') :
    (∃ route, (Router.after run).routes.lookup id = some route ∧ route.owner = route'.owner ∧
      route.accessGeneration = route'.accessGeneration) ∨
    route'.accessGeneration = x.1.generationOf route'.owner := by
  have hinv := inv_after run
  have hearlier : ∀ {outputs : List Output} {s₁ : Router} {d : Option Dispatch}
      {route₁ : CallRoute},
      Turn x.1 (Router.after run) x.2 outputs s₁ d → s₁.routes.lookup id = some route₁ →
      ∃ route, (Router.after run).routes.lookup id = some route ∧ route.owner = route₁.owner ∧
        route.accessGeneration = route₁.accessGeneration := by
    intro outputs s₁ d route₁ turn hroute₁
    obtain ⟨route, hroute, heq⟩ := (inv_turn hinv turn).2.1.routes id route₁ hroute₁
    rcases heq with rfl | rfl
    · exact ⟨_, hroute, rfl, rfl⟩
    · exact ⟨route, hroute, rfl, rfl⟩
  rw [after_concat] at hroute'
  have hstepped := step_stepped hinv x
  generalize (Router.after run).step x = stepped at hstepped hroute'
  obtain ⟨outputs', s'⟩ := stepped
  cases hstepped with
  | rested outputs s₁ turn => exact .inl (hearlier turn hroute')
  | went outputs s₁ d more s₂ turn inv ready dispatched =>
    by_cases hid : id = d.action.callId
    · subst hid
      have hleaves := dispatched.effect.leaves fun route hroute => inv.routes _ route hroute
      rcases hleaves.recorded route' hroute' with ⟨route₁, hroute₁, howner, hsame⟩ | ⟨-, hnow⟩
      · obtain ⟨route, hroute, howner', hsame'⟩ := hearlier turn hroute₁
        exact .inl ⟨route, hroute, howner'.trans howner, hsame'.trans hsame⟩
      · exact .inr hnow
    · exact .inl (hearlier turn (dispatched.elsewhere id hid ▸ hroute'))

theorem oneOwner : OneOwner run x :=
  { starts := starts_justified run x
    once := starts_once run x
    commands := commands_owned run x
    refusals := refusals_justified run x
    forwarded := forwarded_owned run x
    changes := changes_owned run x
    recorded := generation_recorded run x }

end OneOwner

/-! ## A leg gets a call once -/

/-- The call has no route after the first of these turns and some of the others. -/
def Gone (run : List (Env × Input)) (y : Env × Input) (later : List (Env × Input)) (callId : Str) :
    Prop :=
  ∃ first rest, later = first ++ rest ∧
    (Router.after (run ++ y :: first)).routes.lookup callId = none

section

variable (run : List (Env × Input))
include run

variable (y : Env × Input)

theorem after_append (later : List (Env × Input)) : Router.after (run ++ y :: later) =
      Machine.run Router.step (Router.after (run ++ [y])) later := by
  rw [Router.after, Router.after, ← Machine.run_append, append_assoc]
  rfl

theorem gone_or_advanced (later : List (Env × Input)) (callId : Str) : Gone run y later callId ∨
      ∃ route route', (Router.after (run ++ [y])).routes.lookup callId = some route ∧
        (Router.after (run ++ y :: later)).routes.lookup callId = some route' ∧
        Advances route route' := by
  cases hroute : (Router.after (run ++ [y])).routes.lookup callId with
  | none => exact .inl ⟨[], later, rfl, hroute⟩
  | some route =>
    rcases advances_or_gone (inv_after _) hroute later with
      ⟨first, rest, rfl, hgone⟩ | ⟨route', hroute', hadvances⟩
    · exact .inl ⟨first, rest, rfl, by rw [after_append, hgone]⟩
    · exact .inr ⟨route, route', rfl, by rw [after_append, hroute'], hadvances⟩

/-- The leg that has taken a start has the call, unless it has been taken back at once. -/
theorem owner_of_start (x : Env × Input)
    {command : OperatorCommand} (hsent : .sent kind command ∈ Router.outputs run x)
    (hstart : command.isStart = true) (route : CallRoute)
    (hroute : (Router.after (run ++ [x])).routes.lookup command.callId = some route) :
    route.owner = kind := by
  obtain ⟨outputs, s₁, d, more, s', hwent, hmore⟩ := went_of_passes (inv_after run) hsent trivial
  rw [after_concat, hwent.state_eq] at hroute
  cases hwent.dispatched.effect.sends hmore with
  | first leg start live named eligible owner =>
    rw [named.1] at hroute
    exact owner route hroute
  | withdrawn => cases hstart
  | owner _ route action_eq notStart =>
    rw [hstart] at notStart
    cases notStart
  | next event route₁ leg remaining action_eq unavailable before_eq live sub among owner =>
    rw [((hwent.inv.routes _ route₁ before_eq).of_among sub among).2.2.1] at hroute
    exact owner route hroute

/-- A call that was answered has no start left. -/
theorem answered_of_forwarded (x : Env × Input)
    (hforwarded : .forwarded kind event ∈ Router.outputs run x)
    (hanswer : event.isAnswer = true) (route : CallRoute)
    (hroute : (Router.after (run ++ [x])).routes.lookup event.callId = some route) :
    route.start = none := by
  obtain ⟨outputs, s₁, d, more, s', hwent, hmore⟩ :=
    went_of_passes (inv_after run) hforwarded trivial
  rw [after_concat, hwent.state_eq] at hroute
  cases hwent.dispatched.effect.forwards hmore with
  | owner route' action_eq before_eq owner ended answered =>
    rw [action_eq] at answered
    exact answered hanswer route hroute
  | incoming route' action_eq incoming =>
    cases event <;> first | cases incoming; done | cases hanswer

/-- A call is started again only if it was not started on the same leg and not answered, or when it
has had no route. -/
theorem start_again (later : List (Env × Input)) (x : Env × Input) {start : OperatorCommand}
    (hsent : .sent kind start ∈ Router.outputs (run ++ y :: later) x)
    (hstart : start.isStart = true)
    (hbefore : (∃ start', .sent kind start' ∈ Router.outputs run y ∧ start'.isStart = true ∧
        start'.callId = start.callId) ∨
      ∃ kind' event, .forwarded kind' event ∈ Router.outputs run y ∧ event.isAnswer = true ∧
        event.callId = start.callId) : Gone run y later start.callId := by
  rcases gone_or_advanced run y later start.callId with
    hgone | ⟨route, route', hroute, hroute', hadvances⟩
  · exact hgone
  rcases starts_justified (run ++ y :: later) x kind start hsent hstart with
    hnone | ⟨last, hlast, hsome, hrank, -⟩
  · exact ⟨later, [], (append_nil _).symm, hnone⟩
  obtain rfl : last = route' := Option.some.inj (hlast.symm.trans hroute')
  rcases hbefore with ⟨start', hsent', hstart', hsame⟩ | ⟨kind', event, hforwarded, hanswer, hsame⟩
  · have howner := owner_of_start run y hsent' hstart' route (hsame ▸ hroute)
    rw [← howner] at hrank
    exact absurd hrank hadvances.rank.not_gt
  · have hanswered := answered_of_forwarded run y hforwarded hanswer route (hsame ▸ hroute)
    rw [hadvances.answered hanswered] at hsome
    cases hsome

end

/-- **Every call has one owner.** At every turn of every run: a start goes to the first leg of a
call without a route, or after the owner has lost the call before it was answered; the other
commands go to the owner in the generation in which it got the call; only the owner, or a leg whose
incoming call is taken, is heard and changes the route. Between two starts of a call on one leg, and
between its answer and a start, the call has had no route. -/
theorem calls_owned (run : List (Env × Input)) : (∀ x, OneOwner run x) ∧
    ∀ y later x kind start, .sent kind start ∈ Router.outputs (run ++ y :: later) x →
      start.isStart = true →
      ((∃ start', .sent kind start' ∈ Router.outputs run y ∧ start'.isStart = true ∧
          start'.callId = start.callId) ∨
        ∃ kind' event, .forwarded kind' event ∈ Router.outputs run y ∧ event.isAnswer = true ∧
          event.callId = start.callId) → Gone run y later start.callId :=
  ⟨oneOwner run, fun y later x _ _ hsent hstart => start_again run y later x hsent hstart⟩

/-! ## Two legs -/

/-- Both IMS legs are registered. -/
def twoLegs : Env where
  now := 0
  policy := ⟨[], true⟩
  backends := [⟨.vowifi, ⟨true, 1, 7, false⟩⟩, ⟨.cellularIms, ⟨true, 1, 3, false⟩⟩]
  gateMode := 0

/-- The trunk starts a call. -/
def trunkStart : OperatorCommand :=
  .startCall "7".toList "1001".toList "1002".toList (.v4 127 0 0 1) ⟨[], none⟩

/-- A call that VoWiFi loses goes on over cellular IMS. -/
theorem calls_owned_failover :
    .sent .cellularIms trunkStart ∈ Router.outputs [(twoLegs, .command trunkStart)]
        (twoLegs, .event .vowifi (.unavailable "7".toList)) ∧
      OneOwner [(twoLegs, .command trunkStart)]
        (twoLegs, .event .vowifi (.unavailable "7".toList)) :=
  ⟨by decide +kernel, (calls_owned _).1 _⟩

/-- A leg that offers a call under the identity of another leg's call is sent `RejectCall`. -/
theorem refused_to_another_leg :
    ¬∀ run x kind callId, .refused kind callId ∈ Router.outputs run x → Owns run kind callId := by
  intro h
  have hrefused : .refused .cellularIms "7".toList ∈
      Router.outputs [(twoLegs, .command trunkStart)]
        (twoLegs, .event .cellularIms (.incoming "7".toList "2001".toList [])) := by decide +kernel
  obtain ⟨route, hroute, howner⟩ := h _ _ _ _ hrefused
  have hvowifi : ((Router.after [(twoLegs, .command trunkStart)]).routes.lookup "7".toList).map
      CallRoute.owner = some .vowifi := by decide +kernel
  rw [hroute, Option.map_some, howner] at hvowifi
  cases hvowifi

end Env

end SimMaster.Trunk
