import SimMaster.AtDirectQueue
import SimMaster.AtSteps

/-!
# Acknowledging direct PDUs

The acknowledgement that a session writes names no message, so the network takes it for the one it
has delivered last. The session writes it right after it has taken its only PDU, and what the flags
of the router say then is what the steps of the session have been.
-/

namespace SimMaster.At

open Rust List Option Function UrcRouter

namespace AtSession

/-! ## The acknowledgement -/

theorem quietly_perform (s : AtSession) {op : Op} (h : Silent op) : Quietly s (s.perform op) :=
  (Steps.refl s).perform h

variable (outside : Outside)

theorem quietly_takeDirect (s : AtSession) (token : ℕ) (acknowledge : Bool) :
    Quietly s (s.takeDirect outside token acknowledge).2 :=
  quietly_perform s fun _ h => by cases h

/-- The PDU is taken for its acknowledgement, and nothing else is in the buffer. -/
structure TakesForAck (s : AtSession) (now : Instant) (token : ℕ) : Prop where
  takes : (s.urcs.takeDirect now token true).isSome = true
  blank : ∀ b ∈ s.readBuf, isAsciiWhitespace b = true

/-- Only a PDU that was just taken is acknowledged. -/
theorem retireDirect_steps (token : ℕ) (ack : Option Bool) (polls : List Poll)
    (s : AtSession) : Quietly s (retireDirect outside token ack polls s).2.1 ∨
      ∃ now, ack = some true ∧ TakesForAck s now token ∧
        Quietly ((s.perform (.taken now token true)).perform (.wrote cnma))
          (retireDirect outside token ack polls s).2.1 := by
  have hblocked : ∀ s' : AtSession, Quietly s s' →
      Quietly s ((s'.perform .ackBlocked).takeDirect outside token false).2 := fun s' h =>
    (h.trans (@quietly_perform s' .ackBlocked fun _ h => by cases h)).trans
      (quietly_takeDirect outside _ token false)
  have htake : ∀ s' : AtSession, Quietly s s' → Quietly s (s'.takeDirect outside token false).2 :=
    fun s' h => h.trans (quietly_takeDirect outside s' token false)
  unfold retireDirect
  cases ack with
  | none =>
    rw [if_pos (by decide)]
    dsimp only
    have hstep := htake _ (@quietly_perform s .ackBlocked fun _ h => by cases h)
    rw [if_pos rfl]
    split
    next => exact .inl hstep
    next => exact .inl hstep
  | some ack =>
    cases ack with
    | false =>
      rw [if_pos (by decide)]
      dsimp only
      have hstep := htake s (Steps.refl s)
      rw [if_neg (by decide)]
      split
      next => exact .inl hstep
      next => exact .inl hstep
    | true =>
      rw [if_neg (by decide)]
      dsimp only
      by_cases hbuffer : (s.readBuf.any fun b => !isAsciiWhitespace b) = true
      · rw [if_pos hbuffer]
        exact .inl (hblocked s (Steps.refl s))
      rw [if_neg hbuffer]
      have hblank : ∀ b ∈ s.readBuf, isAsciiWhitespace b = true := by
        intro b hb
        by_contra hspace
        refine hbuffer (any_eq_true.mpr ⟨b, hb, ?_⟩)
        rw [Bool.not_eq_true] at hspace
        rw [hspace]
        rfl
      have hquiet := quietly_takeDirect outside s token true
      have htaken : (s.takeDirect outside token true).2 =
          s.perform (.taken (outside.clock s.log.length) token true) := rfl
      have hvalue : (s.takeDirect outside token true).1 =
          (s.urcs.takeDirect (outside.clock s.log.length) token true).map (·.1) := rfl
      generalize s.takeDirect outside token true = taken at hquiet htaken hvalue ⊢
      obtain ⟨pdu, s'⟩ := taken
      dsimp only at hquiet htaken hvalue ⊢
      cases pdu with
      | none =>
        dsimp only
        exact .inl (hblocked s' hquiet)
      | some pdu =>
        subst htaken
        have htakes :
            (s.urcs.takeDirect (outside.clock s.log.length) token true).isSome = true := by
          obtain ⟨found, hfound, -⟩ := map_eq_some_iff.mp hvalue.symm
          rw [hfound]
          rfl
        have hready := exchangeReady_steps outside cnma polls
          (s.perform (.taken (outside.clock s.log.length) token true))
        have htrim : trim cnma = cnma := by decide +kernel
        rw [htrim] at hready
        dsimp only
        generalize exchangeReady outside cnma polls
          (s.perform (.taken (outside.clock s.log.length) token true)) = exchanged at hready ⊢
        obtain ⟨_ | _, s', polls'⟩ := exchanged
        all_goals
          rcases hready with hquiet | hwrote
          · exact .inl ((quietly_takeDirect outside s token true).trans hquiet.quietly)
          · exact .inr ⟨outside.clock s.log.length, rfl, ⟨htakes, hblank⟩, hwrote.quietly⟩

/-! ## Runs -/

/-- The calls on a session. Lines arrive with or without a command being out. -/
inductive Call where
  | arrived (data : Bytes)
  | received (line : Str) (command : Option Str)
  | polled (polls : List Poll)
  | transportReset
  | simBound (simKey : Str)
  | ackBlocked
  | dataCleared
  | completeDirect (token : ℕ) (ack : Option Bool) (polls : List Poll)
  deriving DecidableEq

def call (outside : Outside) (s : AtSession) : Call → AtSession
  | .arrived data =>
    match s.readAvailable data with
    | .ok s => s
    | .error _ => s
  | .received line none => (s.route outside line none).2
  | .received line (some command) => (s.routeCommand outside line command).2
  | .polled polls => (pumpEvents outside polls s).2.1
  | .transportReset => s.reset
  | .simBound simKey => s.perform (.simBound simKey)
  | .ackBlocked => s.perform .ackBlocked
  | .dataCleared => s.perform .dataCleared
  | .completeDirect token ack polls => (completeDirect outside token ack polls s).2.1

/-- The session after these calls. -/
def after (outside : Outside) (calls : List Call) : AtSession := calls.foldl (call outside) {}

theorem log_foldl_perform (ops : List Op) (s : AtSession) :
    (ops.foldl perform s).log = s.log ++ ops := by
  induction ops generalizing s with
  | nil => exact (append_nil _).symm
  | cons op ops ih =>
    rw [foldl_cons, ih]
    simp [perform]

/-- The call acknowledges a PDU: it takes it, writes, and does no more than read afterwards. -/
structure Acknowledges (s s' : AtSession) (now : Instant) (token : ℕ) (mid : AtSession) :
    Prop where
  before : Quietly s mid
  takes : TakesForAck mid now token
  later : Quietly ((mid.perform (.taken now token true)).perform (.wrote cnma)) s'

theorem completeDirect_steps (token : ℕ) (ack : Option Bool)
    (polls : List Poll) (s : AtSession) : Quietly s (completeDirect outside token ack polls s).2.1 ∨
      ack = some true ∧ ∃ now mid,
        Acknowledges s (completeDirect outside token ack polls s).2.1 now token mid := by
  have hpump := (reads_pumpEvents outside polls s).quietly
  unfold completeDirect
  generalize pumpEvents outside polls s = pumped at hpump
  obtain ⟨_ | _, s', polls'⟩ := pumped
  · exact .inl (hpump.trans (reads_reset _).quietly)
  dsimp only at hpump ⊢
  have hretire := retireDirect_steps outside token ack polls' s'
  generalize retireDirect outside token ack polls' s' = retired at hretire ⊢
  obtain ⟨_ | _, s'', polls''⟩ := retired
  · rcases hretire with hquiet | ⟨now, hack, htakes, hquiet⟩
    · exact .inl ((hpump.trans hquiet).trans (reads_reset _).quietly)
    · exact .inr ⟨hack, now, s', hpump, htakes, hquiet.trans (reads_reset _).quietly⟩
  · rcases hretire with hquiet | ⟨now, hack, htakes, hquiet⟩
    · exact .inl (hpump.trans hquiet)
    · exact .inr ⟨hack, now, s', hpump, htakes, hquiet⟩

/-- Only the completion of a PDU with `Some(true)` writes. -/
theorem call_steps (s : AtSession) (c : Call) :
    Quietly s (s.call outside c) ∨ ∃ token polls, c = .completeDirect token (some true) polls ∧
      ∃ now mid, Acknowledges s (s.call outside c) now token mid := by
  cases c with
  | arrived data =>
    unfold call
    dsimp only
    split
    next hread => exact .inl (reads_readAvailable hread).quietly
    next => exact .inl (Steps.refl s)
  | received line command =>
    cases command with
    | none => exact .inl (reads_route outside s line none).quietly
    | some command => exact .inl (reads_routeCommand outside s line command).quietly
  | polled polls => exact .inl (reads_pumpEvents outside polls s).quietly
  | transportReset => exact .inl (reads_reset s).quietly
  | simBound | ackBlocked | dataCleared =>
    exact .inl (quietly_perform s fun _ h => by cases h)
  | completeDirect token ack polls =>
    rcases completeDirect_steps outside token ack polls s with hquiet | ⟨rfl, hack⟩
    · exact .inl hquiet
    · exact .inr ⟨token, polls, rfl, hack⟩

variable {s s' : AtSession}

theorem eq_replay_of_steps {P : Op → Prop} (h : s = replay s.log)
    (hsteps : Steps P s s') : s' = replay s'.log := by
  obtain ⟨ops, -, rfl⟩ := hsteps
  rw [log_foldl_perform, replay_append, ← h]

/-- A session is what its steps have made of it. -/
theorem after_eq_replay (calls : List Call) :
    after outside calls = replay (after outside calls).log := by
  have hstart : ({} : AtSession) = replay ({} : AtSession).log := rfl
  unfold after
  generalize ({} : AtSession) = s at hstart
  induction calls generalizing s with
  | nil => exact hstart
  | cons c calls ih =>
    refine ih _ ?_
    rcases call_steps outside s c with hquiet | ⟨token, polls, -, now, mid, hack⟩
    · exact eq_replay_of_steps hstart hquiet
    · refine eq_replay_of_steps ?_ hack.later
      have hmid := eq_replay_of_steps hstart hack.before
      have hlog : ((mid.perform (.taken now token true)).perform (.wrote cnma)).log =
          mid.log ++ [Op.taken now token true] ++ [Op.wrote cnma] := rfl
      rw [hlog, replay_concat, replay_concat, ← hmid]

/-- Where an element stands in an appended list. -/
theorem append_eq_append_cons {α : Type} {xs ys before later : List α} {x : α}
    (h : xs ++ ys = before ++ x :: later) :
    x ∈ xs ∨ ∃ front, before = xs ++ front ∧ ys = front ++ x :: later := by
  obtain ⟨front, rfl, hys⟩ | ⟨rest, rfl, hlater⟩ := append_eq_append_iff.mp h
  · exact .inr ⟨front, rfl, hys⟩
  · cases rest with
    | nil => exact .inr ⟨[], by simp, hlater.symm⟩
    | cons y rest =>
      obtain ⟨rfl, -⟩ := cons.inj hlater
      exact .inl (by simp)

variable {now : Instant} {token : ℕ}

/-- The steps of a call up to its acknowledgement. -/
theorem Acknowledges.steps {mid : AtSession} (h : Acknowledges s s' now token mid)
    {before later : List Op} (hlog : s'.log = s.log ++ (before ++ Op.wrote cnma :: later)) :
    ∃ earlier, mid.log = s.log ++ earlier ∧ before = earlier ++ [Op.taken now token true] := by
  obtain ⟨ops, hops, hmid⟩ := h.before
  obtain ⟨ops', hops', rfl⟩ := h.later
  subst hmid
  have hfull : (ops'.foldl perform ((((ops.foldl perform s)).perform
      (.taken now token true)).perform (.wrote cnma))).log =
        s.log ++ (ops ++ [Op.taken now token true] ++ Op.wrote cnma :: ops') := by
    rw [log_foldl_perform]
    simp [perform, log_foldl_perform]
  rw [hfull, append_right_inj] at hlog
  refine ⟨ops, log_foldl_perform ops s, ?_⟩
  obtain hmem | ⟨front, rfl, hrest⟩ := append_eq_append_cons hlog
  · -- nothing before the acknowledgement writes
    rw [mem_append, mem_singleton] at hmem
    rcases hmem with hmem | hmem
    · exact absurd rfl (hops _ hmem cnma)
    · cases hmem
  · cases front with
    | nil => rw [append_nil]
    | cons op front =>
      obtain ⟨-, hops''⟩ := cons.inj hrest
      exact absurd rfl (hops' (.wrote cnma) (by rw [hops'']; simp) cnma)

/-! ## The acknowledgement is unambiguous -/

/-- The acknowledgement can only be about the PDU with this token: it is the only one that is
queued, it came not long ago on the port that is still open, under the SIM that is still bound, no
other is on its way, and none was lost under this SIM. -/
structure Unambiguous (ops : List Op) (now : Instant) (token : ℕ) : Prop where
  only : ∃ pdu earlier later line command,
    (replay ops).urcs.direct = [pdu] ∧ pdu.value.token = token ∧
      Reception ops pdu earlier later line command ∧ .reset ∉ later ∧
      now.saturatingDurationSince pdu.received ≤ Duration.fromSecs 10 ∧
      (replay ops).urcs.simKey = some pdu.value.simKey
  noHeader : (replay ops).urcs.pendingPdu = none
  blank : ∀ b ∈ (replay ops).readBuf, isAsciiWhitespace b = true
  unspoiled : Unspoiled ops

theorem TakesForAck.unambiguous {ops : List Op}
    (h : TakesForAck (replay ops) now token) : Unambiguous ops now token := by
  obtain ⟨⟨value, urcs⟩, htake⟩ := isSome_iff_exists.mp h.takes
  obtain ⟨position, pdu, hfound, hnamed, -, hrefused, -⟩ := takeDirect_eq_some htake
  have hrefused := hrefused rfl
  simp only [ackRefused, Bool.or_eq_false_iff, decide_eq_false_iff_not, not_not,
    Bool.not_eq_false', isSome_eq_false_iff, isNone_iff_eq_none, not_lt, ne_eq] at hrefused
  obtain ⟨⟨⟨⟨⟨hone, hheader⟩, hfree⟩, hlive⟩, hage⟩, hkey⟩ := hrefused
  obtain ⟨only, honly⟩ := length_eq_one_iff.mp hone
  have hpdu : pdu = only := by
    have hmem := mem_of_getElem? hfound
    rw [honly] at hmem
    exact mem_singleton.mp hmem
  subst hpdu
  obtain ⟨hbound, earlier, later, line, command, hreception⟩ :=
    exists_reception ops pdu (mem_of_getElem? hfound)
  refine ⟨⟨pdu, earlier, later, line, command, honly, hnamed, hreception,
    hreception.open_of_ackLive hlive, hage, hbound⟩, hheader, h.blank, ?_⟩
  exact unspoiled_of_free ops (by rw [hbound]; exact some_ne_none _) hfree

/-- **Acknowledgements are unambiguous.** A session writes `AT+CNMA=1` only to complete a PDU with
`Some(true)`, right after it has taken the PDU, and when the acknowledgement can be about no other.
As long as the tokens have not come round, none is taken twice. A well-formed PDU is queued after
those that came before it, under the SIM that is bound, and stays there in order until it is taken
or the scope of the SIM ends. -/
theorem acknowledgements_unambiguous (outside : Outside) (calls : List Call) (c : Call) :
    (∀ before later, (after outside (calls ++ [c])).log =
        (after outside calls).log ++ (before ++ Op.wrote cnma :: later) →
      ∃ token polls now earlier, c = .completeDirect token (some true) polls ∧
        before = earlier ++ [Op.taken now token true] ∧
        Unambiguous ((after outside calls).log ++ earlier) now token) ∧
    (routedCount (after outside calls).log < 2 ^ 64 → ∀ earlier op mid again rest token,
        (after outside calls).log = earlier ++ op :: (mid ++ again :: rest) →
        Takes (replay earlier) op token → ¬ Takes (replay (earlier ++ op :: mid)) again token) ∧
    (∀ earlier now line command later kind length simKey,
      (after outside calls).log = earlier ++ Op.routed now line command :: later →
      (replay earlier).urcs.pendingPdu = some (kind, length) → hexLine (trim line) = true →
      validPdu kind length (trim line) = true → (replay earlier).urcs.direct.length < 16 →
      (replay earlier).urcs.simKey = some simKey →
      ∃ value : DirectPdu, value = ⟨UrcRouter.succToken (replay earlier).urcs.nextToken, kind,
          simKey, (trim line).map Char.toUpper⟩ ∧
        (replay (earlier ++ [Op.routed now line command])).urcs.directBatch.pdus =
          (replay earlier).urcs.directBatch.pdus ++ [value] ∧
        (Gone (earlier ++ [Op.routed now line command]) later value.token ∨ ∃ front back,
          (after outside calls).urcs.directBatch.pdus = front ++ value :: back ∧
            front.Sublist (replay earlier).urcs.directBatch.pdus)) := by
  have hafter : after outside (calls ++ [c]) = (after outside calls).call outside c := by
    rw [after, foldl_append]
    rfl
  have hreplay := after_eq_replay outside calls
  refine ⟨?_, ?_, ?_⟩
  · intro before later hlog
    rw [hafter] at hlog
    rcases call_steps outside (after outside calls) c with
      ⟨ops, hsilent, hquiet⟩ | ⟨token, polls, rfl, now, mid, hack⟩
    · rw [hquiet, log_foldl_perform, append_right_inj] at hlog
      exact absurd rfl (hsilent (.wrote cnma) (by rw [hlog]; simp) cnma)
    · obtain ⟨earlier, hmid, hbefore⟩ := hack.steps hlog
      refine ⟨token, polls, now, earlier, rfl, hbefore, TakesForAck.unambiguous ?_⟩
      rw [← hmid, ← eq_replay_of_steps hreplay hack.before]
      exact hack.takes
  · intro hcount earlier op mid again rest token hlog htakes
    exact not_takes_again (hlog ▸ hcount) htakes
  · intro earlier now line command later kind length simKey hlog hpending hhex hvalid hroom hkey
    have hqueued : (replay (earlier ++ [Op.routed now line command])).urcs.directBatch.pdus =
        (replay earlier).urcs.directBatch.pdus ++
          [⟨UrcRouter.succToken (replay earlier).urcs.nextToken, kind, simKey,
            (trim line).map Char.toUpper⟩] := by
      rw [replay_concat]
      have hroute := route_queues hpending hhex hvalid hroom hkey now command
      exact (congrArg (List.map (·.value)) hroute).trans map_append
    refine ⟨_, rfl, hqueued, ?_⟩
    have hstays := stays_or_gone hqueued later
    rwa [append_assoc, singleton_append, ← hlog, ← hreplay] at hstays

/-! ### A run with an acknowledgement -/

section Run

/-- A clock on which every step takes a nanosecond. -/
def steadyClock : Outside := { clock := fun step => step }

def fixtureSim : Str := replicate 64 'a'

/-- A delivery with its header. -/
def delivery : Bytes := asBytes "+CMT: ,4\r\n0000112233\r\n".toList

/-- The port is opened, the SIM bound, and one PDU is delivered. -/
def delivered : List Call :=
  [.polled [], .simBound fixtureSim, .polled [.read delivery]]

/-- The PDU is completed, and the modem answers `OK`. -/
def completed : Call :=
  .completeDirect 1 (some true) [.read [], .read (asBytes "\r\nOK\r\n".toList)]

/-- The steps of the run, and those of its parts. -/
def deliveredSteps : List Op := (after steadyClock delivered).log
def completedSteps : List Op := (after steadyClock (delivered ++ [completed])).log

theorem acknowledgements_unambiguous_run : Unambiguous deliveredSteps 7 1 ∧
    ¬ Takes (replay (deliveredSteps ++ [Op.taken 7 1 true])) (Op.wrote cnma) 1 ∧
    (replay deliveredSteps).urcs.directBatch.pdus =
      [⟨1, .deliver, fixtureSim, "0000112233".toList⟩] := by
  obtain ⟨hack, -, hqueue⟩ := acknowledgements_unambiguous steadyClock delivered completed
  obtain ⟨-, htokens, -⟩ :=
    acknowledgements_unambiguous steadyClock (delivered ++ [completed]) completed
  refine ⟨?_, ?_, ?_⟩
  · obtain ⟨token, polls, now, earlier, hc, hbefore, hunambiguous⟩ :=
      hack [.taken 7 1 true] (completedSteps.drop 9) (by decide +kernel)
    cases earlier with
    | nil =>
      obtain ⟨rfl, rfl, -⟩ := Op.taken.inj (singleton_inj.mp hbefore)
      rwa [append_nil] at hunambiguous
    | cons op earlier => simp at hbefore
  · exact htokens (by decide +kernel) deliveredSteps (.taken 7 1 true) [] (.wrote cnma)
      (completedSteps.drop 9) 1 (by decide +kernel) ⟨7, true, rfl, by decide +kernel⟩
  · obtain ⟨value, hvalue, hqueued, -⟩ := hqueue (deliveredSteps.take 6) 6 "0000112233".toList none
      [] .deliver (some 4) fixtureSim (by decide +kernel) (by decide +kernel) (by decide +kernel)
      (by decide +kernel) (by decide +kernel) (by decide +kernel)
    have hsteps : deliveredSteps.take 6 ++ [Op.routed 6 "0000112233".toList none] =
        deliveredSteps := by decide +kernel
    have hempty : (replay (deliveredSteps.take 6)).urcs.directBatch.pdus = [] := by
      decide +kernel
    have htoken : UrcRouter.succToken (replay (deliveredSteps.take 6)).urcs.nextToken = 1 := by
      decide +kernel
    have hhex : (trim "0000112233".toList).map Char.toUpper = "0000112233".toList := by
      decide +kernel
    rw [hsteps, hempty, hvalue, htoken, hhex] at hqueued
    exact hqueued

end Run

/-! ### What the acknowledgement does not exclude -/

section Lost

/-- The octets of a delivery are there when the port is reopened, and are thrown away with it; the
next delivery is acknowledged. -/
def thrownAway : List Call :=
  [.polled [], .simBound fixtureSim, .arrived delivery, .transportReset, .polled [.read delivery],
    completed]

end Lost

section Tokens

variable (outside : Outside)

def header : Str := "+CMT: ,4".toList
def body : Str := "0000112233".toList

/-- A delivery, and its retirement without an acknowledgement. -/
def cycle (token : ℕ) : List Call :=
  [.received header none, .received body none, .completeDirect token (some false) []]

/-- The SIM is bound, and nothing is queued or on its way. -/
structure Idle (s : AtSession) (simKey : Str) : Prop where
  readBuf : s.readBuf = []
  pendingPdu : s.urcs.pendingPdu = none
  direct : s.urcs.direct = []
  bound : s.urcs.simKey = some simKey

variable {r : UrcRouter}

theorem beginPdu_of_none (h : r.pendingPdu = none) {kind : DirectKind}
    {events : UrcEvents} (header : Str) : beginPdu { r with events } kind header =
      { r with events, pendingPdu := some (kind, headerLength header) } := by
  rw [beginPdu, dropPending_of_none { r with events } h]

theorem route_header (h : r.pendingPdu = none) (now : Instant) : (r.route now header none).2 =
      { r with
        events := { r.events with smsDirect := true }
        pendingPdu := some (.deliver, some 4) } := by
  have htrim : trim header = header := by decide +kernel
  have hown :
      UrcRouter.ownReply (header.map Char.toUpper) ((trim []).map Char.toUpper) = false := by
    decide +kernel
  have hindication : indicationOf (header.map Char.toUpper) = some (.directPdu .deliver) := by
    decide +kernel
  have hlength : headerLength (UrcRouter.payload header) = some 4 := by decide +kernel
  rw [UrcRouter.route, h, htrim]
  dsimp only
  rw [UrcRouter.routeText]
  dsimp only [Option.getD_none]
  rw [if_neg (fun htrue => Bool.false_ne_true (hown.symm.trans htrue))]
  simp only [UrcRouter.indicate, hindication]
  rw [beginPdu_of_none h, hlength]
  rfl

variable {simKey : Str}

theorem route_body (hpending : r.pendingPdu = some (.deliver, some 4)) (hdirect : r.direct = [])
    (hkey : r.simKey = some simKey) (now : Instant) : (r.route now body none).2 = { r with
        pendingPdu := none
        nextToken := UrcRouter.succToken r.nextToken
        direct := [⟨⟨UrcRouter.succToken r.nextToken, .deliver, simKey, body⟩, now, true⟩] } := by
  have htrim : trim body = body := by decide +kernel
  have hvalid : validPdu .deliver (some 4) body = true := by decide +kernel
  have hupper : body.map Char.toUpper = body := by decide +kernel
  rw [UrcRouter.route, hpending, htrim]
  dsimp only
  rw [if_neg (by decide), if_pos (by decide +kernel)]
  obtain ⟨simKey', hkey', -, -, h⟩ | ⟨hnone, -⟩ :=
    UrcRouter.takeBody_cases { r with pendingPdu := none } now .deliver (some 4) body none
  · obtain rfl := Option.some.inj (hkey'.symm.trans hkey)
    rw [h, hupper]
    simp only [hdirect, nil_append]
  · have hroom : r.direct.length < 16 := by simp [hdirect]
    rw [hnone hvalid hroom] at hkey
    cases hkey

theorem takeDirect_only {pdu : QueuedPdu} (h : r.direct = [pdu]) (now : Instant) :
    r.takeDirect now pdu.value.token false = some (pdu.value, { r with direct := [] }) := by
  simp [UrcRouter.takeDirect, h]

theorem pumpEvents_idle (hport : ∀ n, outside.openError n = none)
    (hbuf : s.readBuf = []) : ∃ s', pumpEvents outside [] s = (.ok (), s', []) ∧
      s'.urcs = s.urcs ∧ s'.readBuf = [] := by
  have hlines : ∀ s : AtSession, s.readBuf = [] → s.routeLines outside = s := by
    intro s hbuf
    rw [routeLines, hbuf]
    rfl
  have hpump : ∀ s' : AtSession, s'.readBuf = [] → s.ensureOpen outside = (.ok (), s') →
      pumpEvents outside [] s = (.ok (), s', []) := by
    intro s' hbuf' hopen
    rw [pumpEvents, hopen]
    dsimp only
    rw [MAX_DRAIN_READS, drainReads, hlines s' hbuf']
    dsimp only
    rw [hlines s' hbuf']
  by_cases hopened : s.port = true
  · exact ⟨s, hpump s hbuf (by rw [ensureOpen, if_pos hopened]), rfl, hbuf⟩
  · refine ⟨s.perform .opened, hpump _ hbuf ?_, rfl, hbuf⟩
    rw [ensureOpen, if_neg hopened, hport]

/-- A cycle takes the token it was given out, and leaves the session as idle as it was. -/
theorem cycle_spec (hidle : Idle s simKey) (hport : ∀ n, outside.openError n = none) :
    let token := succToken s.urcs.nextToken
    let s' := (cycle token).foldl (call outside) s
    Idle s' simKey ∧ s'.urcs.nextToken = token ∧
      ∃ mid now, s'.log = mid ++ [Op.taken now token false] ∧ s.log <+: mid ∧
        (s = replay s.log → Takes (replay mid) (.taken now token false) token) := by
  intro token s'
  have hheader := route_header hidle.pendingPdu (outside.clock s.log.length)
  let s₁ := s.perform (.routed (outside.clock s.log.length) header none)
  let s₂ := s₁.perform (.routed (outside.clock s₁.log.length) body none)
  have hurcs₁ : s₁.urcs = _ := hheader
  have hurcs₂ : s₂.urcs = _ := route_body (r := s₁.urcs) (congrArg (·.pendingPdu) hurcs₁)
    ((congrArg (·.direct) hurcs₁).trans hidle.direct)
    ((congrArg (·.simKey) hurcs₁).trans hidle.bound) (outside.clock s₁.log.length)
  have htoken : s₁.urcs.nextToken = s.urcs.nextToken := congrArg (·.nextToken) hurcs₁
  have hkey : s₁.urcs.simKey = some simKey := (congrArg (·.simKey) hurcs₁).trans hidle.bound
  obtain ⟨s₃, hpump, hurcs₃, hbuf₃⟩ :=
    pumpEvents_idle outside hport (s := s₂) hidle.readBuf
  -- the PDU is the only one, and its token is taken
  have hdirect : s₃.urcs.direct =
      [⟨⟨token, .deliver, simKey, body⟩, outside.clock s₁.log.length, true⟩] := by
    rw [hurcs₃, hurcs₂, htoken]
  have htake := takeDirect_only hdirect (outside.clock s₃.log.length)
  let s₄ := s₃.perform (.taken (outside.clock s₃.log.length) token false)
  have hurcs₄ : s₄.urcs = { s₃.urcs with direct := [] } := by
    simp only [s₄, perform, apply, htake]
  have hbuf₄ : s₄.readBuf = [] := by simp only [s₄, perform, apply, htake, hbuf₃]
  have hend : s' = s₄ := by
    have hretire : retireDirect outside token (some false) [] s₃ =
        (.ok "not_required".toList, s₄, []) := by
      rw [retireDirect, if_pos (by decide), if_neg (by decide), if_pos rfl]
      dsimp only [takeDirect]
      rw [htake]
      rfl
    have hcomplete : (completeDirect outside token (some false) [] s₂).2.1 = s₄ := by
      rw [completeDirect, hpump]
      dsimp only
      rw [hretire]
    exact hcomplete
  rw [hend]
  have hsteps : Quietly s s₃ := by
    have h₂ : Quietly s s₂ := ((reads_route outside s header none).trans
      (reads_route outside s₁ body none)).quietly
    have hpumped := (reads_pumpEvents outside [] s₂).quietly
    rw [hpump] at hpumped
    exact h₂.trans hpumped
  have hprefix : s.log <+: s₃.log := by
    obtain ⟨ops, -, rfl⟩ := hsteps
    exact ⟨ops, (log_foldl_perform ops s).symm⟩
  refine ⟨⟨?_, ?_, ?_, ?_⟩, ?_, s₃.log, _, rfl, hprefix, fun hreplay => ?_⟩
  · exact hbuf₄
  · rw [hurcs₄, hurcs₃, hurcs₂]
  · rw [hurcs₄]
  · rw [hurcs₄, hurcs₃, hurcs₂]
    exact hkey
  · rw [hurcs₄, hurcs₃, hurcs₂, htoken]
  · refine ⟨_, false, rfl, ?_⟩
    rw [← eq_replay_of_steps hreplay hsteps, htake]
    rfl

/-- So many cycles, with the tokens that are given out. -/
def cycles : ℕ → List Call
  | 0 => [.simBound fixtureSim]
  | n + 1 => cycles n ++ cycle (UrcRouter.succToken (UrcRouter.succToken^[n] 0))

theorem succToken_iterate (n : ℕ) (h : n < 2 ^ 64) : succToken^[n] 0 = n := by
  induction n with
  | zero => rfl
  | succ n ih => rw [iterate_succ_apply', ih (by omega), succToken_eq h]

variable (hport : ∀ n, outside.openError n = none)
include hport

theorem after_cycles (n : ℕ) : Idle (after outside (cycles n)) fixtureSim ∧
      (after outside (cycles n)).urcs.nextToken = succToken^[n] 0 := by
  induction n with
  | zero =>
    have hstart : after outside (cycles 0) = replay [.simBound fixtureSim] := rfl
    rw [hstart]
    exact ⟨⟨by decide +kernel, by decide +kernel, by decide +kernel, by decide +kernel⟩,
      by decide +kernel⟩
  | succ n ih =>
    obtain ⟨hidle, hnext⟩ := ih
    obtain ⟨hidle', hnext', -⟩ := cycle_spec outside hidle hport
    rw [hnext] at hidle' hnext'
    have hafter : after outside (cycles (n + 1)) =
        (cycle (succToken (succToken^[n] 0))).foldl (call outside)
          (after outside (cycles n)) := by
      rw [after, cycles, foldl_append]
      rfl
    rw [hafter, iterate_succ_apply']
    exact ⟨hidle', hnext'⟩

/-- The steps of one more cycle. -/
theorem log_cycles (n : ℕ) : ∃ mid now,
    (after outside (cycles (n + 1))).log = mid ++ [Op.taken now (succToken^[n + 1] 0) false] ∧
      (after outside (cycles n)).log <+: mid ∧
      Takes (replay mid) (.taken now (succToken^[n + 1] 0) false) (succToken^[n + 1] 0) := by
  obtain ⟨hidle, hnext⟩ := after_cycles outside hport n
  obtain ⟨-, -, mid, now, hlog, hprefix, htakes⟩ := cycle_spec outside hidle hport
  rw [hnext] at hlog htakes
  rw [iterate_succ_apply']
  refine ⟨mid, now, ?_, hprefix, htakes (after_eq_replay outside (cycles n))⟩
  rw [after, cycles, foldl_append]
  exact hlog

theorem log_cycles_prefix (n : ℕ) :
    (after outside (cycles 1)).log <+: (after outside (cycles (n + 1))).log := by
  induction n with
  | zero => exact prefix_refl _
  | succ n ih =>
    obtain ⟨mid, now, hlog, hprefix, -⟩ := log_cycles outside hport (n + 1)
    rw [hlog]
    exact (ih.trans hprefix).trans (prefix_append _ _)

/-- After the tokens have come round, the first one is taken again. -/
theorem takes_again : ∃ calls earlier op mid again rest token,
      (after outside calls).log = earlier ++ op :: (mid ++ again :: rest) ∧
        Takes (replay earlier) op token ∧ Takes (replay (earlier ++ op :: mid)) again token := by
  obtain ⟨first, now, hfirst, -, htakes⟩ := log_cycles outside hport 0
  obtain ⟨last, now', hlast, hprefix, htakes'⟩ := log_cycles outside hport (2 ^ 64 - 1)
  have hfront := log_cycles_prefix outside hport (2 ^ 64 - 2)
  have hcount : 2 ^ 64 - 2 + 1 = 2 ^ 64 - 1 := by omega
  rw [hcount] at hfront
  obtain ⟨mid, hmid⟩ := hfront.trans hprefix
  have hone : succToken^[0 + 1] 0 = 1 := succToken_iterate 1 (by decide)
  have hround : succToken^[2 ^ 64 - 1 + 1] 0 = 1 := by
    rw [iterate_succ_apply', succToken_iterate (2 ^ 64 - 1) (by omega)]
    decide +kernel
  rw [hone] at hfirst htakes
  rw [hround] at hlast htakes'
  rw [show 0 + 1 = 1 from rfl] at hfirst
  rw [hfirst, append_assoc, singleton_append] at hmid
  refine ⟨cycles (2 ^ 64 - 1 + 1), first, .taken now 1 false, mid, .taken now' 1 false, [], 1, ?_,
    htakes, ?_⟩
  · rw [hlast, ← hmid, append_assoc, cons_append]
  · rwa [hmid]

end Tokens

/-- A delivery whose octets are thrown away with the port does not block the acknowledgement of the
next one under the same SIM, and tokens that have come round are taken again. -/
theorem acknowledgements_limits : ((after steadyClock (thrownAway.take 3)).readBuf = delivery ∧
      (after steadyClock (thrownAway.take 4)).readBuf = [] ∧
      (after steadyClock (thrownAway.take 4)).urcs.direct = [] ∧
      (∀ n, 2 ≤ n → (after steadyClock (thrownAway.take n)).urcs.simKey = some fixtureSim) ∧
      .wrote cnma ∈ (after steadyClock thrownAway).log) ∧
    ¬ ∀ outside calls earlier op mid again rest token,
      (after outside calls).log = earlier ++ op :: (mid ++ again :: rest) →
        Takes (replay earlier) op token → ¬ Takes (replay (earlier ++ op :: mid)) again token := by
  refine ⟨⟨by decide +kernel, by decide +kernel, by decide +kernel, fun n hn => ?_,
    by decide +kernel⟩, fun h => ?_⟩
  · have hall : ∀ n < 6, 2 ≤ n →
        (after steadyClock (thrownAway.take n)).urcs.simKey = some fixtureSim := by decide +kernel
    rcases Nat.lt_or_ge n 6 with hlt | hge
    · exact hall n hlt hn
    · have hfull : thrownAway.take n = thrownAway := take_of_length_le hge
      rw [hfull]
      decide +kernel
  · obtain ⟨calls, earlier, op, mid, again, rest, token, hlog, htakes, hagain⟩ :=
      takes_again steadyClock fun _ => rfl
    exact h _ _ _ _ _ _ _ _ hlog htakes hagain

end AtSession

end SimMaster.At
