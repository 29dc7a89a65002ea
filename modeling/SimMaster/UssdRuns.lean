import SimMaster.UssdReservations

/-!
# Runs of USSD requests

Every step of every task is one of the changes of the tables that `UssdReservations` treats
(`Sound.advance`), so what the tables say together holds in every state that any interleaving of
requests reaches (`reservations_backed`): one dialog on a modem, a reason for every reservation, and
no session left in one table only. `refused_while_reaped` is a start that is refused although its
modem has neither a start in flight nor a session: the session has expired, and its modem is kept
until the dialog has been cancelled.
-/

namespace SimMaster

open Rust List Option

namespace Ussd

/-! ## Steps of the tasks -/

/-- The sessions a reaping still has to end, after it may have finished. -/
def endsOf : Option Reap → List Expired
  | none => []
  | some reap => reap.ends

variable {s : State} {others : List Profile}

/-- A reaping task takes its next step. -/
theorem Sound.reap {p : Profile} (h : Sound s.tables (p :: others)) (reap : Reap)
    (hends : p.ends = reap.ends) (hbinding : p.binding = none) (hfound : p.found = none) :
    Sound (reap.advance s).1.tables ({ p with ends := endsOf (reap.advance s).2 } :: others) := by
  have hstay : ∀ ends, p.ends = ends → Sound s.tables ({ p with ends := ends } :: others) := by
    rintro ends rfl
    exact h
  cases reap with
  | sweeping => exact h.sweep s.now hends hbinding hfound
  | checking rest =>
    cases rest with
    | nil => exact hstay [] hends
    | cons first rest =>
      rw [Reap.advance]
      cases hreserved : s.tables.stillReserved first with
      | true => exact hstay (first :: rest) hends
      | false => exact h.skip hends hreserved
  | locking first rest =>
    rw [Reap.advance]
    split_ifs
    · exact hstay (first :: rest) hends
    · exact hstay (first :: rest) hends
  | rechecking first rest =>
    rw [Reap.advance]
    cases hreserved : s.tables.stillReserved first with
    | true => exact hstay (first :: rest) hends
    | false => exact h.skip hends hreserved
  | cancelling first rest => exact hstay (first :: rest) hends
  | releasing first rest => exact h.releaseSession hends

/-- The task has found its reservation gone: this does not happen. -/
def Task.isUnbinding : Task → Bool
  | unbinding _ _ => true
  | _ => false

/-- What holds after the step of a task among the `others`. -/
def Next.Holds (t : Tables) (others : List Profile) : Next → Prop
  | .task next => Sound t (next.profile :: others) ∧ next.isUnbinding = false
  | .answer _ => Sound t others

variable {task : Task}

/-- Every step of every task keeps the tables sound. -/
theorem Sound.advance (h : Sound s.tables (task.profile :: others))
    (hbound : task.isUnbinding = false) (millis : ℕ) (command : Except String Str) :
    (task.advance s millis command).2.Holds (task.advance s millis command).1.tables others := by
  cases task with
  | starting start =>
    rw [Task.advance]
    cases startOutcome start command with
    | error answer => exact ⟨h.relabel rfl rfl rfl rfl (by simp [Task.profile]), rfl⟩
    | ok transaction => exact ⟨h.issue millis rfl rfl rfl, rfl⟩
  | releasingStart start answer => exact h.releaseStart rfl rfl rfl
  | reaping reap after =>
    cases after with
    | insert start id transaction =>
      have hreap := h.reap reap rfl rfl rfl
      rw [Task.advance]
      generalize reap.advance s = result at hreap ⊢
      obtain ⟨s', next⟩ := result
      cases next with
      | none => exact ⟨hreap, rfl⟩
      | some next => exact ⟨hreap, rfl⟩
    | find request =>
      have hreap := h.reap reap rfl rfl rfl
      rw [Task.advance]
      generalize reap.advance s = result at hreap ⊢
      obtain ⟨s', next⟩ := result
      cases next with
      | none => exact ⟨hreap, rfl⟩
      | some next => exact ⟨hreap, rfl⟩
  | inserting start id transaction =>
    exact ⟨h.insert rfl rfl ⟨rfl, rfl⟩ rfl rfl rfl, rfl⟩
  | binding start id transaction =>
    obtain ⟨t', ht', hsound⟩ := h.bind rfl rfl rfl
    rw [Task.advance, ht']
    exact hsound
  | unbinding start id => cases hbound
  | finding request =>
    rw [Task.advance]
    cases hsession : s.tables.sessions.lookup request.sessionId with
    | none => exact h.leave rfl rfl
    | some session =>
      dsimp only
      split_ifs
      · refine ⟨h.relabel rfl rfl rfl rfl fun id found hfound => .inr ?_, rfl⟩
        cases hfound
        exact hsession
      · exact h.leave rfl rfl
  | locking request session =>
    rw [Task.advance]
    split_ifs
    · exact ⟨h, rfl⟩
    · exact ⟨h, rfl⟩
  | checking request session =>
    rw [Task.advance]
    split_ifs
    · exact ⟨h, rfl⟩
    · exact h.leave rfl rfl
  | commanding request session =>
    rw [Task.advance]
    cases requestOutcome request command with
    | error answer => exact ⟨h, rfl⟩
    | ok transaction => exact ⟨h, rfl⟩
  | touching request session transaction =>
    rw [Task.advance]
    cases htouch : s.tables.touchSession s.now request.sessionId session with
    | none => exact h.leave rfl rfl
    | some tables => exact (h.touch htouch).leave rfl rfl
  | removing request session answer =>
    rw [Task.advance]
    cases hremove : s.tables.removeSession request.sessionId session with
    | none => exact h.leave rfl rfl
    | some tables => exact ⟨h.remove rfl rfl rfl hremove, rfl⟩
  | releasing request session answer => exact (h.releaseSession rfl).leave rfl rfl

/-! ## Whole runs -/

/-- What every interleaving of the requests keeps. -/
structure Reachable (s : State) : Prop where
  sound : Sound s.tables (s.tasks.map Task.profile)
  bound : ∀ task ∈ s.tasks, task.isUnbinding = false

theorem reachable_initial (now : Instant) : Reachable (initial now) where
  sound := by
    refine ⟨fun p hp => ?_, Pairwise.nil, fun path entry hentry => ?_,
      fun id session hsession => ?_, fun p hp => ?_, fun id _ =>
        ⟨⟨rfl, ?_, ?_, fun p hp => ?_⟩, fun p hp => ?_⟩⟩
    · cases hp
    · cases hentry
    · cases hsession
    · cases hp
    · exact fun path operation hentry => by cases hentry
    · exact not_mem_nil
    · cases hp
    · cases hp
  bound task htask := by cases htask

/-- A task joins the others. -/
theorem Reachable.join {t : Tables} {tasks : List Task}
    (hbound : ∀ other ∈ tasks, other.isUnbinding = false) (htask : task.isUnbinding = false)
    (h : Sound t (task.profile :: tasks.map Task.profile)) :
    Reachable { s with tables := t, tasks := tasks ++ [task] } where
  sound := by
    refine h.perm ?_
    rw [map_append]
    exact (perm_append_singleton task.profile (tasks.map Task.profile)).symm
  bound other hother := by
    rcases mem_append.mp hother with hother | hother
    · exact hbound other hother
    · rw [mem_singleton.mp hother]
      exact htask

theorem Reachable.enter (h : Reachable s) (call : Except String Call)
    (lineId modemPath sessionId : Str) : Reachable (enter s call lineId modemPath sessionId).2 := by
  cases call with
  | error error => exact h
  | ok call =>
    rw [Ussd.enter.eq_2]
    split_ifs
    · exact h
    · exact Reachable.join h.bound rfl h.sound.arrive

/-- Every event keeps it. -/
theorem Reachable.step (h : Reachable s) (event : Event) : Reachable (step s event).2 := by
  cases event with
  | start lineId modemPath code =>
    rw [Ussd.step]
    cases validateCode code with
    | error error => exact h
    | ok code =>
      cases hreserve : s.tables.reserveModem modemPath with
      | none => exact h
      | some result =>
        exact Reachable.join h.bound rfl (h.sound.reserve hreserve)
  | continueSession lineId modemPath sessionId input => exact h.enter _ _ _ _
  | cancelSession lineId modemPath sessionId => exact h.enter _ _ _ _
  | pass elapsed => exact ⟨h.sound, h.bound⟩
  | proceed index millis command =>
    rw [Ussd.step]
    cases htask : s.tasks[index]? with
    | none => exact h
    | some task =>
      obtain ⟨hlt, rfl⟩ := List.getElem?_eq_some_iff.mp htask
      have hperm := getElem_cons_eraseIdx_perm hlt
      have hsound := h.sound.perm (hperm.map Task.profile).symm
      have hnext := hsound.advance (h.bound _ (getElem_mem hlt)) millis command
      have hrest : ∀ other ∈ s.tasks.eraseIdx index, other.isUnbinding = false :=
        fun other hother =>
        h.bound other (mem_of_mem_eraseIdx hother)
      dsimp only
      generalize (s.tasks[index]).advance s millis command = result at hnext ⊢
      obtain ⟨s', next⟩ := result
      cases next with
      | answer answer => exact ⟨hnext, hrest⟩
      | task next =>
        have hset := set_perm_cons_eraseIdx hlt next
        refine ⟨hnext.1.perm (hset.map Task.profile).symm, fun other hother => ?_⟩
        rcases mem_cons.mp (hset.mem_iff.mp hother) with rfl | hother
        · exact hnext.2
        · exact hrest other hother

theorem reachable_run (now : Instant) (events : List Event) :
    Reachable (Machine.run step (initial now) events) :=
  Machine.run_invariant step (reachable_initial now) (fun _ event h => h.step event) events

/-! ## What the tables say -/

/-- A modem has one dialog at most: one session on the table, or one start in flight, whose own
session may already be on the table. -/
structure OneDialog (s : State) : Prop where
  sessions : ∀ id id' session session', s.tables.sessions.lookup id = some session →
    s.tables.sessions.lookup id' = some session' → session.modemPath = session'.modemPath → id = id'
  starts : s.tasks.Pairwise fun task other => ∀ start start', task.profile.start = some start →
    other.profile.start = some start' → start.modemPath ≠ start'.modemPath
  own : ∀ task ∈ s.tasks, ∀ start, task.profile.start = some start → ∀ id session,
    s.tables.sessions.lookup id = some session → session.modemPath = start.modemPath →
      task.profile.binding = some id

/-- A session that is ended leaves both tables. -/
structure Ends (s : State) : Prop where
  /-- By a continue or a cancel: the session leaves the table. -/
  removed : ∀ index millis command request session answer,
    s.tasks[index]? = some (.removing request session answer) →
      (step s (.proceed index millis command)).2.tables.sessions.lookup request.sessionId = none
  /-- By a reaping: the expired sessions leave the table. -/
  swept : ∀ index millis command after, s.tasks[index]? = some (.reaping .sweeping after) →
    ∀ id session, (step s (.proceed index millis command)).2.tables.sessions.lookup id =
      some session → Tables.hasExpired s.now session = false
  /-- A session whose modem is given back is not on the table, and its modem is free of it. -/
  released : ∀ task ∈ s.tasks, ∀ e ∈ task.profile.ends, s.tables.sessions.lookup e.id = none ∧
    (s.tables.releaseSession e.modemPath e.id).boundTo e.modemPath e.id = false

/-- The modem has no start in flight, no session on the table, no session that is being ended, and
is not reserved by a session that was ended before it was bound. -/
structure Unclaimed (s : State) (path : Str) : Prop where
  starts : ∀ task ∈ s.tasks, task.profile.start.map (·.modemPath) ≠ some path
  sessions : ∀ entry ∈ s.tables.sessions.entries, entry.2.modemPath ≠ path
  ends : ∀ task ∈ s.tasks, ∀ e ∈ task.profile.ends, e.modemPath ≠ path
  unbound : ∀ id ∈ s.tables.endedUnbound, s.tables.boundTo path id = false

theorem Reachable.starts_pairwise (h : Reachable s) :
    s.tasks.Pairwise fun task other => Apart task.profile other.profile :=
  pairwise_map.mp h.sound.apart

variable {start : Start}

section

variable (h : Reachable s)
include h

/-- A start in flight is told by its modem. -/
theorem Reachable.binding_eq {other : Task} {start' : Start}
    (htask : task ∈ s.tasks) (hother : other ∈ s.tasks) (hstart : task.profile.start = some start)
    (hstart' : other.profile.start = some start') (hpath : start.modemPath = start'.modemPath) :
    task.profile.binding = other.profile.binding := by
  by_contra hne
  have hdistinct : task ≠ other := by
    rintro rfl
    exact hne rfl
  have : Std.Symm fun task other : Task => Apart task.profile other.profile :=
    ⟨fun _ _ => Apart.symm⟩
  have hpair := h.starts_pairwise.forall htask hother hdistinct
  exact hpair.starts start start' hstart hstart' hpath

theorem Reachable.own {id : Str}
    {session : UssdSession} (htask : task ∈ s.tasks) (hstart : task.profile.start = some start)
    (hsession : s.tables.sessions.lookup id = some session)
    (hpath : session.modemPath = start.modemPath) : task.profile.binding = some id := by
  have hreserved := (h.sound.fits _ (mem_map_of_mem htask)).reserved start hstart
  cases h.sound.kept id session hsession with
  | bound hbound =>
    rw [hpath, hreserved] at hbound
    cases hbound
  | binding hp hbinding hstart' howns =>
    obtain ⟨other, hother, rfl⟩ := mem_map.mp hp
    rw [h.binding_eq htask hother hstart hstart' (hpath.symm.trans howns.1.symm), hbinding]

theorem Reachable.oneDialog : OneDialog s where
  sessions id id' session session' hsession hsession' hpath := by
    cases h.sound.kept id session hsession with
    | binding hp hbinding hstart howns =>
      obtain ⟨task, htask, rfl⟩ := mem_map.mp hp
      have hown := h.own htask hstart hsession' (hpath.symm.trans howns.1.symm)
      exact some.inj (hbinding.symm.trans hown)
    | bound hbound =>
      cases h.sound.kept id' session' hsession' with
      | binding hp hbinding hstart howns =>
        obtain ⟨task, htask, rfl⟩ := mem_map.mp hp
        have hown := h.own htask hstart hsession (hpath.trans howns.1.symm)
        exact some.inj (hown.symm.trans hbinding)
      | bound hbound' =>
        rw [hpath, hbound', some.injEq, ActiveModem.mk.injEq] at hbound
        exact (some.inj hbound.1).symm
  starts := h.starts_pairwise.imp fun hapart start start' => hapart.starts start start'
  own task htask start hstart id session hsession hpath := h.own htask hstart hsession hpath

theorem Reachable.ends : Ends s where
  removed index millis command request session answer htask := by
    obtain ⟨hlt, hget⟩ := List.getElem?_eq_some_iff.mp htask
    have hfits := h.sound.fits _ (mem_map_of_mem (getElem_mem hlt))
    rw [hget] at hfits
    rw [Ussd.step, htask]
    dsimp only [Task.advance, Tables.removeSession]
    cases hcurrent : s.tables.sessions.lookup request.sessionId with
    | none => exact hcurrent
    | some current =>
      have hsame := hfits.found request.sessionId session rfl current hcurrent
      dsimp only
      rw [if_pos hsame.modemPath]
      exact AList.lookup_erase _ _
  swept index millis command after htask id session hsession := by
    rw [Ussd.step, htask] at hsession
    exact (Sound.lookup_sweep.mp hsession).2
  released task htask e he := by
    refine ⟨(h.sound.fits _ (mem_map_of_mem htask)).ended e he, ?_⟩
    rw [Tables.releaseSession]
    split_ifs with hbound
    · rw [Tables.boundTo]
      rw [AList.lookup_erase]
      rfl
    · simpa using hbound

/-- A start on an unclaimed modem is not refused as busy. -/
theorem Reachable.not_busy {path : Str} (hfree : Unclaimed s path)
    (lineId code : Str) : (Ussd.step s (.start lineId path code)).1 ≠ some (.error busy) := by
  have hnone : s.tables.activeModems.lookup path = none := by
    rw [eq_none_iff_forall_ne_some]
    intro entry hentry
    cases h.sound.backed path entry hentry with
    | start hp hstart hpath =>
      obtain ⟨task, htask, rfl⟩ := mem_map.mp hp
      exact hfree.starts task htask (by rw [hstart, ← hpath]; rfl)
    | session hsession hpath => exact hfree.sessions _ (AList.mem_lookup_iff.mp hsession) hpath
    | ending hp he =>
      obtain ⟨task, htask, rfl⟩ := mem_map.mp hp
      exact hfree.ends task htask _ he rfl
    | unbound hid =>
      have hbound := hfree.unbound _ hid
      rw [Tables.boundTo, hentry] at hbound
      simp at hbound
  rw [Ussd.step]
  cases hcode : validateCode code with
  | error error =>
    have hother : error ≠ busy := by
      rintro rfl
      rw [validateCode] at hcode
      split_ifs at hcode
      · exact absurd (Except.error.inj hcode) (by decide)
      · exact absurd (Except.error.inj hcode) (by decide)
    simpa using hother
  | ok code =>
    rw [Tables.reserveModem, hnone]
    simp

end

/-- In every state that any interleaving reaches: a modem has one dialog at most, every reservation
has its reason and every session its modem, sessions that end leave both tables, and a start is
refused as busy only if its modem is claimed. -/
theorem reservations_backed (now : Instant) (events : List Event) :
    OneDialog (Machine.run step (initial now) events) ∧ (∀ path entry,
      (Machine.run step (initial now) events).tables.activeModems.lookup path = some entry →
      Backed (Machine.run step (initial now) events).tables
        ((Machine.run step (initial now) events).tasks.map Task.profile) path entry) ∧
    (∀ id session,
      (Machine.run step (initial now) events).tables.sessions.lookup id = some session →
      Kept (Machine.run step (initial now) events).tables
        ((Machine.run step (initial now) events).tasks.map Task.profile) id session) ∧
    Ends (Machine.run step (initial now) events) ∧
    ∀ path, Unclaimed (Machine.run step (initial now) events) path → ∀ lineId code,
      (step (Machine.run step (initial now) events) (.start lineId path code)).1 ≠
        some (.error busy) := by
  have h := reachable_run now events
  exact ⟨h.oneDialog, h.sound.backed, h.sound.kept, h.ends, fun path hfree => h.not_busy hfree⟩

/-! ### One dialog -/

/-- A caller starts a dialog on modem `m` that goes on, and its session is bound. -/
def opened : List Event :=
  [.start "line".toList ['m'] "*100#".toList,
    .proceed 0 0 (.ok "+CUSD: 1,menu,15".toList), .proceed 0 0 (.error ""),
    .proceed 0 0 (.error ""), .proceed 0 0 (.error ""), .proceed 0 0 (.error "")]

/-- The session expires, and a cancel has begun to reap it. -/
def halfReaped : List Event :=
  opened ++ [Event.pass sessionTtl, .cancelSession "line".toList ['m'] "ussd-0-1".toList,
    .proceed 0 0 (.error "")]

/-- The reaping goes on to its end, and the cancel does not find its session. -/
def reaped : List Event :=
  halfReaped ++ replicate 7 (Event.proceed 0 0 (.error ""))

/-- After the session has been reaped its modem can be used again. -/
theorem reservations_backed_reaped : (Machine.run step (initial 0) reaped).tasks.length = 0 ∧
    (step (Machine.run step (initial 0) reaped) (.start "line".toList ['m'] "*100#".toList)).1 ≠
      some (.error busy) :=
  ⟨by decide +kernel, (reservations_backed 0 reaped).2.2.2.2 ['m']
    ⟨by decide +kernel, by decide +kernel, by decide +kernel, by decide +kernel⟩ _ _⟩

/-- While an expired session is being reaped its modem stays reserved, without a start in flight
and without a session: a start is refused. -/
theorem refused_while_reaped : ¬ ∀ (now : Instant) (events : List Event) (lineId path code : Str),
    (∀ task ∈ (Machine.run step (initial now) events).tasks,
      task.profile.start.map (·.modemPath) ≠ some path) →
    (∀ entry ∈ (Machine.run step (initial now) events).tables.sessions.entries,
      entry.2.modemPath = path →
        Tables.hasExpired (Machine.run step (initial now) events).now entry.2 = true) →
    (step (Machine.run step (initial now) events) (.start lineId path code)).1 ≠
      some (.error busy) := by
  intro h
  have hrefused : (step (Machine.run step (initial 0) halfReaped)
      (.start "line".toList ['m'] "*100#".toList)).1 = some (.error busy) := by decide +kernel
  exact h 0 halfReaped "line".toList ['m'] "*100#".toList (by decide +kernel) (by decide +kernel)
    hrefused

end Ussd

end SimMaster
