import SimMaster.AtSession

/-!
# The queue of direct PDUs

What a session has done is the list of its steps, and the session is what they have made of it
(`replay`). Read back from the steps, the entries of the queue and the flags of the router say when
a PDU came, that the port was not reopened and the SIM not changed since, and that no PDU was lost
under the SIM. Tokens are given out in order, and a PDU stays in the queue, in order, until it is
taken or the scope of its SIM ends.
-/

namespace SimMaster.At

open Rust List UrcRouter

namespace AtSession

/-! ## What a step does to the queue -/

/-- The ways in which a step changes the queue and the scope it belongs to. -/
inductive DirectStep (r r' : UrcRouter) : Op → Prop where
  | kept {op : Op} (noReset : op ≠ .reset) (direct : r'.direct = r.direct)
      (simKey : r'.simKey = r.simKey) (nextToken : r'.nextToken = r.nextToken) : DirectStep r r' op
  | queued {now : Instant} {line : Str} {command : Option Str} (pdu : QueuedPdu)
      (direct : r'.direct = r.direct ++ [pdu]) (bound : r.simKey = some pdu.value.simKey)
      (simKey : r'.simKey = r.simKey) (received : pdu.received = now) (ackLive : pdu.ackLive = true)
      (token : pdu.value.token = UrcRouter.succToken r.nextToken)
      (nextToken : r'.nextToken = pdu.value.token) : DirectStep r r' (.routed now line command)
  | cleared {op : Op} (direct : r'.direct = [])
      (simKey : r'.simKey ≠ r.simKey ∨ r.simKey = none)
      (nextToken : r'.nextToken = r.nextToken) : DirectStep r r' op
  | expired (direct : r'.direct = r.direct.map fun pdu => { pdu with ackLive := false })
      (simKey : r'.simKey = r.simKey) (nextToken : r'.nextToken = r.nextToken) :
      DirectStep r r' .reset
  | taken {now : Instant} {token : ℕ} {acknowledge : Bool} (position : ℕ) (pdu : QueuedPdu)
      (found : r.direct[position]? = some pdu) (named : pdu.value.token = token)
      (success : (r.takeDirect now token acknowledge).isSome = true)
      (direct : r'.direct = r.direct.eraseIdx position) (simKey : r'.simKey = r.simKey)
      (nextToken : r'.nextToken = r.nextToken) : DirectStep r r' (.taken now token acknowledge)

theorem clearPrivateData_nextToken (r : UrcRouter) :
    r.clearPrivateData.nextToken = r.nextToken := by
  simp [clearPrivateData, resetFrame]

variable {r r' : UrcRouter} {op : Op}

theorem directStep_clear (hdirect : r'.direct = [])
    (hkey : r'.simKey = none) (htoken : r'.nextToken = r.nextToken) : DirectStep r r' op := by
  refine .cleared hdirect ?_ htoken
  cases hr : r.simKey with
  | none => exact .inr rfl
  | some key => exact .inl (by rw [hkey]; exact (Option.some_ne_none key).symm)

theorem directStep_routeText {base : UrcRouter} (now : Instant) (line line' : Str)
    (command : Option Str) (hdirect : base.direct = r.direct) (hkey : base.simKey = r.simKey)
    (htoken : base.nextToken = r.nextToken) :
    DirectStep r (base.routeText line command).2 (.routed now line' command) := by
  obtain ⟨events, h | ⟨kind, header, h⟩ | h⟩ := base.routeText_cases line command
  · rw [h]
    exact .kept (fun h => by cases h) hdirect hkey htoken
  · rw [h]
    exact .kept (fun h => by cases h) (by simp [beginPdu, hdirect])
      (by simp [beginPdu, hkey]) (by simp [beginPdu, htoken])
  · rw [h]
    exact directStep_clear rfl rfl ((clearPrivateData_nextToken base).trans htoken)

theorem directStep_route (r : UrcRouter) (now : Instant) (line : Str) (command : Option Str) :
    DirectStep r (r.route now line command).2 (.routed now line command) := by
  unfold UrcRouter.route
  cases hpending : r.pendingPdu with
  | none => exact directStep_routeText _ _ _ _ rfl rfl rfl
  | some header =>
    obtain ⟨kind, length⟩ := header
    dsimp only
    split
    next => exact .kept (fun h => by cases h) rfl rfl rfl
    split
    next =>
      obtain ⟨simKey, hkey, -, -, h⟩ | ⟨-, framingFault, h⟩ :=
        UrcRouter.takeBody_cases { r with pendingPdu := none } now kind length (trim line) command
      · rw [h]
        exact .queued _ rfl hkey rfl rfl rfl rfl rfl
      · rw [h]
        exact .kept (fun h => by cases h) rfl rfl rfl
    next => exact directStep_routeText _ _ _ _ rfl rfl rfl

variable {now : Instant} {token : ℕ} {value : DirectPdu}

theorem takeDirect_eq_some {acknowledge : Bool}
    (h : r.takeDirect now token acknowledge = some (value, r')) :
    ∃ position pdu, r.direct[position]? = some pdu ∧ pdu.value.token = token ∧
      pdu.value = value ∧ (acknowledge = true → r.ackRefused now pdu = false) ∧
      r' = { r with direct := r.direct.eraseIdx position } := by
  simp only [UrcRouter.takeDirect, Option.bind_eq_bind, Option.bind_eq_some_iff] at h
  obtain ⟨position, hfind, pdu, hpdu, h⟩ := h
  split at h
  next => cases h
  next hrefused =>
    obtain ⟨rfl, rfl⟩ := Prod.mk.inj (Option.some.inj h)
    refine ⟨position, pdu, hpdu, ?_, rfl, fun hack => ?_, rfl⟩
    · obtain ⟨hlt, hnamed, -⟩ := List.findIdx?_eq_some_iff_getElem.mp hfind
      rw [List.getElem?_eq_getElem hlt] at hpdu
      rw [← Option.some.inj hpdu]
      exact beq_iff_eq.mp hnamed
    · rwa [hack, Bool.true_and, Bool.not_eq_true] at hrefused

theorem directStep_apply (s : AtSession) (op : Op) : DirectStep s.urcs (s.apply op).urcs op := by
  cases op with
  | opened | wrote | read | popped | faultTaken | eventsTaken | ackBlocked =>
    exact .kept (fun h => by cases h) rfl rfl rfl
  | routed now line command => exact directStep_route ..
  | reset =>
    refine .expired ?_ ?_ ?_
    all_goals simp [apply, transportReset, resetFrame]
  | dataCleared => exact directStep_clear rfl rfl (clearPrivateData_nextToken _)
  | simBound simKey =>
    simp only [apply, bindSim]
    split
    next h =>
      split at h
      next => cases h
      split at h
      next hkey =>
        obtain rfl := Except.ok.inj h
        exact .cleared rfl (.inl (Ne.symm hkey)) (clearPrivateData_nextToken _)
      next =>
        obtain rfl := Except.ok.inj h
        exact .kept (fun h => by cases h) rfl rfl rfl
    next => exact .kept (fun h => by cases h) rfl rfl rfl
  | taken now token acknowledge =>
    simp only [apply]
    split
    next value urcs h =>
      obtain ⟨position, pdu, hfound, hnamed, -, -, rfl⟩ := takeDirect_eq_some h
      exact .taken position pdu hfound hnamed (by rw [h]; rfl) rfl rfl rfl
    next => exact .kept (fun h => by cases h) rfl rfl rfl

/-! ## Replaying the steps -/

/-- The session after these steps. -/
def replay (ops : List Op) : AtSession := ops.foldl perform {}

theorem replay_append (ops more : List Op) :
    replay (ops ++ more) = more.foldl perform (replay ops) := by
  rw [replay, foldl_append]
  rfl

theorem replay_concat (ops : List Op) (op : Op) :
    replay (ops ++ [op]) = (replay ops).perform op := replay_append ops [op]

/-- The step binds another SIM, or none. -/
def ChangesSim (s : AtSession) (op : Op) : Prop := (s.apply op).urcs.simKey ≠ s.urcs.simKey

/-- The step gives up a header that waited for its PDU, without queueing the PDU. -/
def Loses (s : AtSession) : Op → Prop
  | .routed now line command => s.urcs.pendingPdu.isSome = true ∧ trim line ≠ [] ∧
      (s.urcs.route now line command).2.direct.length ≤ s.urcs.direct.length
  | .reset | .dataCleared => s.urcs.pendingPdu.isSome = true
  | .simBound simKey => s.urcs.pendingPdu.isSome = true ∧ ChangesSim s (.simBound simKey)
  | _ => False

/-- The step queues the PDU. -/
def Queues (s : AtSession) (now : Instant) (line : Str) (command : Option Str)
    (value : DirectPdu) : Prop :=
  (s.urcs.route now line command).2.direct =
    s.urcs.direct ++ [{ value, received := now, ackLive := true }]

/-- The step takes the PDU with this token. -/
def Takes (s : AtSession) (op : Op) (token : ℕ) : Prop :=
  ∃ now acknowledge, op = .taken now token acknowledge ∧
    (s.urcs.takeDirect now token acknowledge).isSome = true

/-- When a queued PDU came, and that its SIM has been bound ever since. -/
structure Reception (ops : List Op) (pdu : QueuedPdu) (earlier later : List Op) (line : Str)
    (command : Option Str) : Prop where
  steps : ops = earlier ++ .routed pdu.received line command :: later
  queues : Queues (replay earlier) pdu.received line command pdu.value
  /-- The port that it came in on is still open. -/
  open_of_ackLive : pdu.ackLive = true → .reset ∉ later
  bound : ∀ mid rest, later = mid ++ rest →
    (replay (earlier ++ .routed pdu.received line command :: mid)).urcs.simKey =
      some pdu.value.simKey

variable {ops later : List Op} {line : Str} {command : Option Str}

theorem Reception.concat {earlier : List Op} {pdu pdu' : QueuedPdu}
    (h : Reception ops pdu earlier later line command)
    (hvalue : pdu'.value = pdu.value) (hreceived : pdu'.received = pdu.received)
    (hlive : pdu'.ackLive = true → pdu.ackLive = true ∧ op ≠ .reset)
    (hkey : ((replay ops).apply op).urcs.simKey = (replay ops).urcs.simKey) :
    Reception (ops ++ [op]) pdu' earlier (later ++ [op]) line command := by
  refine ⟨?_, ?_, fun hack => ?_, fun mid rest hlater => ?_⟩
  · rw [h.steps, hreceived, append_assoc, cons_append]
  · rw [hreceived, hvalue]
    exact h.queues
  · rw [mem_append, mem_singleton, not_or]
    exact ⟨h.open_of_ackLive (hlive hack).1, Ne.symm (hlive hack).2⟩
  · rw [hreceived, hvalue]
    -- either all the steps are meant, and then the last one has kept the SIM, or only old ones
    obtain rfl | ⟨front, last, rfl⟩ := eq_nil_or_concat rest
    · rw [append_nil] at hlater
      rw [← hlater, ← cons_append, ← append_assoc, ← h.steps, replay_concat]
      have hall := h.bound later [] (append_nil later).symm
      rw [← h.steps] at hall
      exact hkey.trans hall
    · rw [concat_eq_append, ← append_assoc] at hlater
      exact h.bound mid front (append_inj' hlater rfl).1

/-- Every queued PDU has a reception, and belongs to the SIM that is bound. -/
theorem exists_reception (ops : List Op) : ∀ pdu ∈ (replay ops).urcs.direct,
    (replay ops).urcs.simKey = some pdu.value.simKey ∧
      ∃ earlier later line command, Reception ops pdu earlier later line command := by
  induction ops using reverseRecOn with
  | nil => exact fun pdu hpdu => by cases hpdu
  | append_singleton ops op ih =>
    intro pdu hpdu
    have happly : (replay (ops ++ [op])).urcs = ((replay ops).apply op).urcs := by
      rw [replay_concat]
      rfl
    rw [happly] at hpdu ⊢
    cases directStep_apply (replay ops) op with
    | kept noReset direct simKey =>
      rw [direct] at hpdu
      obtain ⟨hkey, earlier, later, line, command, h⟩ := ih pdu hpdu
      exact ⟨simKey.trans hkey, earlier, _, line, command,
        h.concat rfl rfl (fun hack => ⟨hack, noReset⟩) simKey⟩
    | @queued now line command new direct bound simKey received ackLive =>
      rw [direct, mem_append, mem_singleton] at hpdu
      rcases hpdu with hpdu | rfl
      · obtain ⟨hkey, earlier, later, line, command, h⟩ := ih pdu hpdu
        exact ⟨simKey.trans hkey, earlier, _, line, command,
          h.concat rfl rfl (fun hack => ⟨hack, fun h => by cases h⟩) simKey⟩
      · refine ⟨simKey.trans bound, ops, [], line, command, ?_, ?_, ?_, ?_⟩
        · rw [received]
        · obtain ⟨value, received, live⟩ := pdu
          subst received ackLive
          exact direct
        · exact fun _ h => by cases h
        · intro mid rest hnil
          obtain ⟨rfl, rfl⟩ := append_eq_nil_iff.mp hnil.symm
          rw [received, replay_concat]
          exact simKey.trans bound
    | cleared direct =>
      rw [direct] at hpdu
      cases hpdu
    | expired direct simKey =>
      rw [direct, mem_map] at hpdu
      obtain ⟨old, hold, rfl⟩ := hpdu
      obtain ⟨hkey, earlier, later, line, command, h⟩ := ih old hold
      exact ⟨simKey.trans hkey, earlier, _, line, command,
        h.concat rfl rfl (fun hack => by cases hack) simKey⟩
    | taken position old found named success direct simKey =>
      rw [direct] at hpdu
      obtain ⟨hkey, earlier, later, line, command, h⟩ := ih pdu (mem_of_mem_eraseIdx hpdu)
      exact ⟨simKey.trans hkey, earlier, _, line, command,
        h.concat rfl rfl (fun hack => ⟨hack, fun h => by cases h⟩) simKey⟩

/-! ## Losses -/

/-- A text line that ends neither the scope of the SIM nor a header leaves the block as it is. -/
theorem ackBlocked_routeText (hbound : (r.routeText line command).2.simKey ≠ none)
    (hfree : (r.routeText line command).2.ackBlocked = false) : r.ackBlocked = false := by
  obtain ⟨events, h | ⟨kind, header, h⟩ | h⟩ := r.routeText_cases line command
  · rwa [h] at hfree
  · rw [h, beginPdu, dropPending_ackBlocked, Bool.or_eq_false_iff] at hfree
    exact hfree.1
  · rw [h] at hbound
    exact absurd rfl hbound

variable {s : AtSession}

theorem ackBlocked_route (hbound : s.urcs.simKey ≠ none)
    (hsame : (s.urcs.route now line command).2.simKey = s.urcs.simKey)
    (hfree : (s.urcs.route now line command).2.ackBlocked = false) :
    s.urcs.ackBlocked = false ∧ ¬ Loses s (.routed now line command) := by
  rw [← hsame] at hbound
  unfold Loses
  unfold UrcRouter.route at hbound hfree ⊢
  cases hpending : s.urcs.pendingPdu with
  | none =>
    rw [hpending] at hbound hfree
    exact ⟨ackBlocked_routeText hbound hfree, fun h => by cases h.1⟩
  | some header =>
    obtain ⟨kind, length⟩ := header
    rw [hpending] at hbound hfree
    dsimp only at hbound hfree ⊢
    by_cases hempty : (trim line).isEmpty = true
    · rw [if_pos hempty] at hfree
      exact ⟨hfree, fun h => h.2.1 (isEmpty_iff.mp hempty)⟩
    rw [if_neg hempty] at hbound hfree ⊢
    by_cases hhex : hexLine (trim line) = true
    · rw [if_pos hhex] at hbound hfree ⊢
      obtain ⟨simKey, -, -, -, h⟩ | ⟨-, framingFault, h⟩ :=
        UrcRouter.takeBody_cases { s.urcs with pendingPdu := none } now kind length (trim line)
          command
      · rw [h] at hfree ⊢
        refine ⟨hfree, fun hlose => ?_⟩
        simp at hlose
      · rw [h] at hfree
        cases hfree
    · rw [if_neg hhex] at hbound hfree
      cases ackBlocked_routeText hbound hfree

/-- While a SIM stays bound, the acknowledgements stay blocked, and every loss blocks them. -/
theorem ackBlocked_apply (hbound : s.urcs.simKey ≠ none)
    (hsame : ¬ ChangesSim s op) (hfree : (s.apply op).urcs.ackBlocked = false) :
    s.urcs.ackBlocked = false ∧ ¬ Loses s op ∧ op ≠ .ackBlocked := by
  rw [ChangesSim, not_not] at hsame
  cases op with
  | opened | wrote | read | popped | faultTaken | eventsTaken =>
    exact ⟨hfree, id, fun h => by cases h⟩
  | ackBlocked => cases hfree
  | dataCleared => exact absurd hsame.symm hbound
  | reset =>
    simp only [apply, transportReset, resetFrame,
      dropPending_ackBlocked, Bool.or_eq_false_iff] at hfree
    refine ⟨hfree.1, fun h => ?_, fun h => by cases h⟩
    rw [Loses, hfree.2] at h
    cases h
  | simBound simKey =>
    refine ⟨?_, fun h => h.2 hsame, fun h => by cases h⟩
    simp only [apply, bindSim] at hsame hfree
    split at hfree
    next h =>
      simp only [h] at hsame
      split at h
      next => cases h
      split at h
      next hkey =>
        obtain rfl := Except.ok.inj h
        exact absurd hsame.symm hkey
      next =>
        obtain rfl := Except.ok.inj h
        exact hfree
    next => exact hfree
  | taken now token acknowledge =>
    refine ⟨?_, id, fun h => by cases h⟩
    simp only [apply] at hfree
    split at hfree
    next h =>
      obtain ⟨position, pdu, -, -, -, -, rfl⟩ := takeDirect_eq_some h
      exact hfree
    next => exact hfree
  | routed now line command =>
    obtain ⟨hfree, hlose⟩ := ackBlocked_route hbound hsame hfree
    exact ⟨hfree, hlose, fun h => by cases h⟩

/-- A step blocks the acknowledgements, or a PDU is lost by it. -/
def Spoils (s : AtSession) (op : Op) : Prop := Loses s op ∨ op = .ackBlocked

/-- Whenever something spoiled the acknowledgements, the SIM was changed then or later. -/
def Unspoiled (ops : List Op) : Prop :=
  ∀ earlier op later, ops = earlier ++ op :: later → Spoils (replay earlier) op →
    ∃ mid change rest, op :: later = mid ++ change :: rest ∧
      ChangesSim (replay (earlier ++ mid)) change

theorem unspoiled_of_free (ops : List Op) (hbound : (replay ops).urcs.simKey ≠ none)
    (hfree : (replay ops).urcs.ackBlocked = false) : Unspoiled ops := by
  induction ops using reverseRecOn with
  | nil =>
    intro earlier op later h
    cases append_eq_nil_iff.mp h.symm with
    | intro _ h => cases h
  | append_singleton ops last ih =>
    rw [replay_concat] at hbound hfree
    intro earlier op later hsteps hspoils
    by_cases hchanges : ChangesSim (replay ops) last
    · -- the last step changes the SIM
      obtain rfl | ⟨front, final, rfl⟩ := eq_nil_or_concat later
      · obtain ⟨rfl, hop⟩ := append_inj' hsteps rfl
        obtain rfl := singleton_inj.mp hop
        exact ⟨[], last, [], rfl, by rwa [append_nil]⟩
      · rw [concat_eq_append, ← cons_append, ← append_assoc] at hsteps
        obtain ⟨rfl, hfinal⟩ := append_inj' hsteps rfl
        obtain rfl := singleton_inj.mp hfinal
        exact ⟨op :: front, last, [], by rw [concat_eq_append, cons_append], hchanges⟩
    · have hkey : ((replay ops).apply last).urcs.simKey = (replay ops).urcs.simKey :=
        not_not.mp hchanges
      have hbefore : (replay ops).urcs.simKey ≠ none := hkey ▸ hbound
      obtain ⟨hfree', hlose, hnot⟩ := ackBlocked_apply hbefore hchanges hfree
      obtain rfl | ⟨front, final, rfl⟩ := eq_nil_or_concat later
      · obtain ⟨rfl, hop⟩ := append_inj' hsteps rfl
        obtain rfl := singleton_inj.mp hop
        exact absurd hspoils (not_or.mpr ⟨hlose, hnot⟩)
      · rw [concat_eq_append, ← cons_append, ← append_assoc] at hsteps
        obtain ⟨hsteps, -⟩ := append_inj' hsteps rfl
        obtain ⟨mid, change, rest, hlater, hchange⟩ :=
          ih hbefore hfree' earlier op front hsteps hspoils
        exact ⟨mid, change, rest ++ [final],
          by rw [concat_eq_append, ← cons_append, hlater, append_assoc, cons_append], hchange⟩

/-! ## Tokens -/

/-- The lines that were given to the router. -/
def routedCount (ops : List Op) : ℕ :=
  ops.countP fun op => match op with
    | .routed .. => true
    | _ => false

/-- While the tokens have not come round, they are given out in order and no two PDUs share one. -/
structure TokensFresh (ops : List Op) : Prop where
  nextToken_le : (replay ops).urcs.nextToken ≤ routedCount ops
  le_nextToken : ∀ pdu ∈ (replay ops).urcs.direct, pdu.value.token ≤ (replay ops).urcs.nextToken
  nodup : ((replay ops).urcs.direct.map (·.value.token)).Nodup

theorem succToken_eq (h : token + 1 < 2 ^ 64) : succToken token = token + 1 := by
  rw [succToken, Nat.mod_eq_of_lt h]
  omega

theorem tokensFresh (ops : List Op) (hcount : routedCount ops < 2 ^ 64) : TokensFresh ops := by
  induction ops using reverseRecOn with
  | nil => exact ⟨le_rfl, fun pdu h => (by cases h), nodup_nil⟩
  | append_singleton ops op ih =>
    have hgrow : routedCount (ops ++ [op]) = routedCount ops + routedCount [op] :=
      countP_append
    obtain ⟨hnext, hle, hnodup⟩ := ih (by omega)
    have happly : (replay (ops ++ [op])).urcs = ((replay ops).apply op).urcs := by
      rw [replay_concat]
      rfl
    cases directStep_apply (replay ops) op with
    | kept noReset direct simKey nextToken =>
      refine ⟨?_, ?_, ?_⟩
      · rw [happly]
        omega
      · rw [happly, direct, nextToken]
        exact hle
      · rw [happly, direct]
        exact hnodup
    | @queued now line command pdu direct bound simKey received ackLive token nextToken =>
      have hone : routedCount [.routed now line command] = 1 := rfl
      rw [succToken_eq (by omega)] at token
      refine ⟨?_, ?_, ?_⟩
      · rw [happly]
        omega
      · rw [happly, direct, nextToken]
        intro old hold
        rw [mem_append, mem_singleton] at hold
        rcases hold with hold | rfl
        · have := hle old hold
          omega
        · exact le_rfl
      · rw [happly, direct, map_append, map_singleton, nodup_append]
        refine ⟨hnodup, nodup_singleton _, ?_⟩
        intro t ht t' ht' heq
        rw [mem_map] at ht
        obtain ⟨old, hold, rfl⟩ := ht
        rw [mem_singleton] at ht'
        have := hle old hold
        omega
    | cleared direct simKey nextToken =>
      refine ⟨?_, ?_, ?_⟩
      · rw [happly]
        omega
      · rw [happly, direct]
        exact fun pdu h => by cases h
      · rw [happly, direct]
        exact nodup_nil
    | expired direct simKey nextToken =>
      refine ⟨?_, ?_, ?_⟩
      · rw [happly]
        omega
      · rw [happly, direct, nextToken]
        intro pdu hpdu
        obtain ⟨old, hold, rfl⟩ := mem_map.mp hpdu
        exact hle old hold
      · rw [happly, direct, map_map]
        exact hnodup
    | taken position pdu found named success direct simKey nextToken =>
      refine ⟨?_, ?_, ?_⟩
      · rw [happly]
        omega
      · rw [happly, direct, nextToken]
        exact fun old hold => hle old (mem_of_mem_eraseIdx hold)
      · rw [happly, direct]
        exact hnodup.sublist ((eraseIdx_sublist _ _).map _)

/-- A token that was taken is not queued again. -/
theorem not_queued_of_taken (htaken : Takes (replay ops) op token) (later : List Op)
    (hcount : routedCount (ops ++ op :: later) < 2 ^ 64) :
    token ≤ (replay (ops ++ op :: later)).urcs.nextToken ∧
      ∀ pdu ∈ (replay (ops ++ op :: later)).urcs.direct, pdu.value.token ≠ token := by
  induction later using reverseRecOn with
  | nil =>
    obtain ⟨hnext, hle, hnodup⟩ := tokensFresh ops (by
      rw [routedCount, countP_append] at hcount
      exact lt_of_le_of_lt (Nat.le_add_right _ _) hcount)
    obtain ⟨now, acknowledge, rfl, hsome⟩ := htaken
    rw [replay_concat]
    obtain ⟨⟨value, urcs⟩, htake⟩ := Option.isSome_iff_exists.mp hsome
    obtain ⟨position, pdu, hfound, rfl, -, -, rfl⟩ := takeDirect_eq_some htake
    have hurcs : ((replay ops).perform (.taken now pdu.value.token acknowledge)).urcs =
        { (replay ops).urcs with direct := (replay ops).urcs.direct.eraseIdx position } := by
      simp only [perform, apply, htake]
    rw [hurcs]
    refine ⟨hle pdu (mem_of_getElem? hfound), fun other hother heq => ?_⟩
    obtain ⟨i, hne, hi⟩ := mem_eraseIdx_iff_getElem?.mp hother
    -- the queue holds the token in one place only
    have hi' : ((replay ops).urcs.direct.map (·.value.token))[i]? = some pdu.value.token := by
      rw [getElem?_map, hi, Option.map_some, heq]
    have hposition :
        ((replay ops).urcs.direct.map (·.value.token))[position]? = some pdu.value.token := by
      rw [getElem?_map, hfound, Option.map_some]
    exact hne ((getElem?_inj (List.getElem?_eq_some_iff.mp hi').1 hnodup).mp
      (hi'.trans hposition.symm))
  | append_singleton later last ih =>
    have hsteps : ops ++ op :: (later ++ [last]) = (ops ++ op :: later) ++ [last] := by
      rw [append_assoc, cons_append]
    have hgrow : routedCount ((ops ++ op :: later) ++ [last]) =
        routedCount (ops ++ op :: later) + routedCount [last] := countP_append
    rw [hsteps] at hcount ⊢
    obtain ⟨hle, hnot⟩ := ih (by omega)
    obtain ⟨hnext, -, -⟩ := tokensFresh _ (show routedCount (ops ++ op :: later) < 2 ^ 64 by omega)
    rw [replay_concat]
    have happly : ((replay (ops ++ op :: later)).perform last).urcs =
        ((replay (ops ++ op :: later)).apply last).urcs := rfl
    rw [happly]
    cases directStep_apply (replay (ops ++ op :: later)) last with
    | kept noReset direct simKey nextToken =>
      rw [direct, nextToken]
      exact ⟨hle, hnot⟩
    | @queued now line command pdu direct bound simKey received ackLive token' nextToken =>
      have hone : routedCount [.routed now line command] = 1 := rfl
      rw [succToken_eq (by omega)] at token'
      rw [direct, nextToken]
      refine ⟨by omega, fun other hother => ?_⟩
      rw [mem_append, mem_singleton] at hother
      rcases hother with hother | rfl
      · exact hnot other hother
      · omega
    | cleared direct simKey nextToken =>
      rw [direct, nextToken]
      exact ⟨hle, fun other hother => by cases hother⟩
    | expired direct simKey nextToken =>
      rw [direct, nextToken]
      refine ⟨hle, fun other hother => ?_⟩
      obtain ⟨old, hold, rfl⟩ := mem_map.mp hother
      exact hnot old hold
    | taken position pdu found named success direct simKey nextToken =>
      rw [direct, nextToken]
      exact ⟨hle, fun other hother => hnot other (mem_of_mem_eraseIdx hother)⟩

/-- **A token is taken once**, as long as the tokens have not come round. -/
theorem not_takes_again {rest : List Op} {again : Op}
    (hcount : routedCount (ops ++ op :: (later ++ again :: rest)) < 2 ^ 64)
    (htakes : Takes (replay ops) op token) : ¬ Takes (replay (ops ++ op :: later)) again token := by
  rintro ⟨now, acknowledge, rfl, hsome⟩
  have hshorter : routedCount (ops ++ op :: later) < 2 ^ 64 := by
    rw [← cons_append, ← append_assoc, routedCount, countP_append] at hcount
    exact lt_of_le_of_lt (Nat.le_add_right _ _) hcount
  obtain ⟨⟨value, urcs⟩, htake⟩ := Option.isSome_iff_exists.mp hsome
  obtain ⟨position, pdu, hfound, hnamed, -, -, -⟩ := takeDirect_eq_some htake
  exact (not_queued_of_taken htakes later hshorter).2 pdu (mem_of_getElem? hfound) hnamed

/-! ## Staying in the queue -/

/-- A well-formed PDU after its header is queued under the SIM that is bound, if there is room. -/
theorem route_queues {kind : DirectKind} {length : Option ℕ} {simKey : Str}
    (hpending : r.pendingPdu = some (kind, length)) (hhex : hexLine (trim line) = true)
    (hvalid : validPdu kind length (trim line) = true) (hroom : r.direct.length < 16)
    (hkey : r.simKey = some simKey) (now : Instant) (command : Option Str) :
    (r.route now line command).2.direct = r.direct ++ [⟨⟨UrcRouter.succToken r.nextToken, kind,
      simKey, (trim line).map Char.toUpper⟩, now, true⟩] := by
  have hempty : (trim line).isEmpty = false := by
    rw [hexLine, Bool.and_eq_true, Bool.and_eq_true, Bool.not_eq_true'] at hhex
    exact hhex.1.1
  unfold UrcRouter.route
  rw [hpending]
  dsimp only
  rw [if_neg (Bool.not_eq_true _ ▸ hempty), if_pos hhex]
  obtain ⟨simKey', hkey', -, -, h⟩ | ⟨hnone, -⟩ :=
    UrcRouter.takeBody_cases { r with pendingPdu := none } now kind length (trim line) command
  · obtain rfl := Option.some.inj (hkey'.symm.trans hkey)
    rw [h]
  · rw [hnone hvalid hroom] at hkey
    cases hkey

/-- The PDU was taken, or the scope of its SIM has ended, in one of these steps. -/
def Gone (ops later : List Op) (token : ℕ) : Prop :=
  ∃ mid op rest, later = mid ++ op :: rest ∧
    (Takes (replay (ops ++ mid)) op token ∨ ChangesSim (replay (ops ++ mid)) op)

theorem Gone.concat (h : Gone ops later token) (last : Op) : Gone ops (later ++ [last]) token := by
  obtain ⟨mid, op, rest, rfl, hgone⟩ := h
  exact ⟨mid, op, rest ++ [last], by rw [append_assoc, cons_append], hgone⟩

theorem gone_last
    (h : Takes (replay (ops ++ later)) op token ∨ ChangesSim (replay (ops ++ later)) op) :
    Gone ops (later ++ [op]) token := ⟨later, op, [], rfl, h⟩

/-- **Queued PDUs stay queued**, in order: until it is gone, what is before a PDU was before it,
and what is after it has come later or was after it. -/
theorem stays_or_gone {front back : List DirectPdu}
    (hqueued : (replay ops).urcs.directBatch.pdus = front ++ value :: back) (later : List Op) :
    Gone ops later value.token ∨ ∃ front' back',
      (replay (ops ++ later)).urcs.directBatch.pdus = front' ++ value :: back' ∧
        front'.Sublist front := by
  induction later using reverseRecOn with
  | nil =>
    rw [append_nil]
    exact .inr ⟨front, back, hqueued, Sublist.refl _⟩
  | append_singleton later last ih =>
    rcases ih with hgone | ⟨front', back', hbatch, hfront⟩
    · exact .inl (hgone.concat last)
    rw [← append_assoc, replay_concat]
    rw [directBatch] at hbatch
    dsimp only at hbatch
    have happly : (((replay (ops ++ later)).perform last).urcs.directBatch).pdus =
        ((replay (ops ++ later)).apply last).urcs.direct.map (·.value) := rfl
    rw [happly]
    cases directStep_apply (replay (ops ++ later)) last with
    | kept noReset direct simKey nextToken =>
      rw [direct]
      exact .inr ⟨front', back', hbatch, hfront⟩
    | @queued now line command pdu direct bound simKey received ackLive token' nextToken =>
      rw [direct, map_append, hbatch]
      exact .inr ⟨front', back' ++ [pdu.value], by simp, hfront⟩
    | cleared direct simKey nextToken =>
      have hmem : value ∈ (replay (ops ++ later)).urcs.direct.map (·.value) := by
        rw [hbatch]
        simp
      obtain ⟨pdu, hpdu, rfl⟩ := mem_map.mp hmem
      obtain ⟨hkey, -⟩ := exists_reception _ pdu hpdu
      refine .inl (gone_last (.inr ?_))
      rcases simKey with hchanged | hnone
      · exact hchanged
      · rw [hkey] at hnone
        cases hnone
    | expired direct simKey nextToken =>
      rw [direct, map_map]
      exact .inr ⟨front', back', hbatch, hfront⟩
    | taken position pdu found named success direct simKey nextToken =>
      rw [direct, ← eraseIdx_map, hbatch]
      rcases lt_trichotomy position front'.length with hlt | heq | hgt
      · rw [eraseIdx_append_of_lt_length hlt]
        exact .inr ⟨_, back', rfl, (eraseIdx_sublist _ _).trans hfront⟩
      · -- the PDU itself is taken
        have hvalue : pdu.value = value := by
          have hget := congrArg (fun pdus => pdus[position]?) hbatch
          rw [getElem?_map, found, Option.map_some, heq, getElem?_append_right le_rfl,
            Nat.sub_self, getElem?_cons_zero] at hget
          exact Option.some.inj hget
        subst hvalue named
        exact .inl (gone_last (.inl ⟨_, _, rfl, success⟩))
      · rw [eraseIdx_append_of_length_le hgt.le]
        obtain ⟨k, hk⟩ : ∃ k, position - front'.length = k + 1 :=
          Nat.exists_eq_succ_of_ne_zero (by omega)
        rw [hk, eraseIdx_cons_succ]
        exact .inr ⟨front', _, rfl, hfront⟩

end AtSession

end SimMaster.At
