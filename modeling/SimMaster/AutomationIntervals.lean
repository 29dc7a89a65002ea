import SimMaster.AutomationScheduler

/-!
# Interval tasks and their history

Two automatic starts of an `Interval` task should be its interval apart. The scheduler reads the
time of the last start off the log, so that this holds as long as the log tells it. It does not
always: the log is cleaned up by age and by count without regard to the intervals (after 90 days by
default, while the default interval is 180 days), users clear it, a failed read counts as an empty
log, and a failed insertion is ignored.

`Undisturbed` says of a step that it does none of this to a task whose interval is running.
`starts_apart` is the law for the runs of such steps, and `cleanup_starts_early` shows that the
default cleanup breaks it.
-/

namespace SimMaster

open Rust List Option

namespace Automation

/-- The interval a task is configured with, in nanoseconds. -/
def configuredInterval (task : AutomationTask) : Option ℤ :=
  match task.trigger with
  | .interval intervalValue intervalUnit =>
    some (nanoseconds (match unitSeconds intervalUnit with
      | some unit => intervalValue.toNat * unit
      | none => 180 * 86400))
  | _ => none

/-- The number of units is an `i64`, as which it is read. -/
def fits (task : AutomationTask) : Bool :=
  match task.trigger with
  | .interval intervalValue _ => decide (intervalValue.toNat < 2 ^ 63)
  | _ => true

/-- The task that was found due and is about to be started. -/
def Scheduler.due : Scheduler → Option AutomationTask
  | .spawning task _ => some task
  | _ => none

/-- The task that is decided on next. -/
def Scheduler.next : Scheduler → Option AutomationTask
  | .evaluating (task :: _) => some task
  | _ => none

/-- The tasks that are left of the round. -/
def Scheduler.tasks : Scheduler → List AutomationTask
  | .evaluating tasks => tasks
  | .spawning task tasks => task :: tasks
  | _ => []

/-- Any two automatic starts of a task are its interval apart. The list has the last start first. -/
def Apart (starts : List (AutomationTask × ℤ)) : Prop :=
  starts.Pairwise fun later earlier => later.1 = earlier.1 →
    ∀ d ∈ configuredInterval later.1, earlier.2 + d ≤ later.2

instance (starts : List (AutomationTask × ℤ)) : Decidable (Apart starts) :=
  inferInstanceAs (Decidable (starts.Pairwise fun later earlier => later.1 = earlier.1 →
    ∀ d ∈ configuredInterval later.1, earlier.2 + d ≤ later.2))

/-! ## Steps that leave the history alone -/

section Conditions

variable (calendar : Calendar) (config : AutomationConfig)

/-- A row from which the interval of a configured task is still running. -/
def Young (now : ℤ) (row : AutomationLogEntry) : Prop :=
  ∃ task ∈ config.tasks, task.enabled = true ∧ task.id = row.taskId ∧
    ∃ d ∈ configuredInterval task, ∃ t ∈ calendar.parse row.createdAt, now < t + d

/-- The rows from which an interval is running stay, or later ones of their tasks. -/
def Spares (now : ℤ) (before after : List AutomationLogEntry) : Prop :=
  ∀ row ∈ before, Young calendar config now row →
    ∃ kept ∈ after, kept.taskId = row.taskId ∧ row.createdAt ≤ kept.createdAt

/-- An automatic run whose interval is still running. -/
def Run.Owes (now : ℤ) (run : Run) : Prop :=
  run.automatic = true ∧ ∃ d ∈ configuredInterval run.task, now < run.started + d

/-- The decision on a task is made on its history: the log is read, or has no row that matters. -/
def Informed (s : State) (read : Bool) (task : AutomationTask) : Prop :=
  task.enabled = true → fits task = true ∧
    (read = true ∨ ∀ row ∈ s.logs, row.taskId = task.id → ¬ Young calendar config s.clock row)

/-- The log after the step. -/
def logsAfter (s : State) (action : Action) : List AutomationLogEntry :=
  (act calendar config s action).logs

/-- The step does not take away, hide or fail to make the record of a start whose interval is still
running. -/
def Undisturbed (s : State) : Action → Prop
  | .schedule read cleanup executed =>
    Spares calendar config s.clock s.logs
        (logsAfter calendar config s (.schedule read cleanup executed)) ∧
      ∀ task ∈ s.scheduler.next, Informed calendar config s read task
  | .record index _ _ stored => ∀ run ∈ s.runs[index]?, run.Owes s.clock →
    run.ended = true ∨ stored = true ∧ run.started ≤ wholeSecond s.clock
  | .release index => ∀ run ∈ s.runs[index]?, run.Owes s.clock →
    run.ended = true ∧ s.scheduler.due.map (·.id) ≠ some run.task.id
  | .test _ => True
  | .clear taskType status lineId startDate endDate =>
    Spares calendar config s.clock s.logs
      (AutomationLog.clearAutomationLogs taskType status lineId startDate endDate s.logs)

instance (now : ℤ) (row : AutomationLogEntry) : Decidable (Young calendar config now row) :=
  inferInstanceAs (Decidable (∃ task ∈ config.tasks, task.enabled = true ∧ task.id = row.taskId ∧
    ∃ d ∈ configuredInterval task, ∃ t ∈ calendar.parse row.createdAt, now < t + d))

instance (now : ℤ) (before after : List AutomationLogEntry) :
    Decidable (Spares calendar config now before after) :=
  inferInstanceAs (Decidable (∀ row ∈ before, Young calendar config now row →
    ∃ kept ∈ after, kept.taskId = row.taskId ∧ row.createdAt ≤ kept.createdAt))

instance (now : ℤ) (run : Run) : Decidable (run.Owes now) :=
  inferInstanceAs (Decidable (run.automatic = true ∧
    ∃ d ∈ configuredInterval run.task, now < run.started + d))

instance (s : State) (read : Bool) (task : AutomationTask) :
    Decidable (Informed calendar config s read task) :=
  inferInstanceAs (Decidable (task.enabled = true → fits task = true ∧
    (read = true ∨ ∀ row ∈ s.logs, row.taskId = task.id → ¬ Young calendar config s.clock row)))

instance (s : State) : (action : Action) → Decidable (Undisturbed calendar config s action)
  | .schedule read cleanup executed =>
    inferInstanceAs (Decidable (Spares calendar config s.clock s.logs
        (logsAfter calendar config s (.schedule read cleanup executed)) ∧
      ∀ task ∈ s.scheduler.next, Informed calendar config s read task))
  | .record index _ _ stored =>
    inferInstanceAs (Decidable (∀ run ∈ s.runs[index]?, run.Owes s.clock →
      run.ended = true ∨ stored = true ∧ run.started ≤ wholeSecond s.clock))
  | .release index =>
    inferInstanceAs (Decidable (∀ run ∈ s.runs[index]?, run.Owes s.clock →
      run.ended = true ∧ s.scheduler.due.map (·.id) ≠ some run.task.id))
  | .test _ => inferInstanceAs (Decidable True)
  | .clear taskType status lineId startDate endDate =>
    inferInstanceAs (Decidable (Spares calendar config s.clock s.logs
      (AutomationLog.clearAutomationLogs taskType status lineId startDate endDate s.logs)))

end Conditions

/-! ## Decisions -/

section Decisions

variable {calendar : Calendar} {config : AutomationConfig} {meets : ℤ → Prop}

variable {task : AutomationTask}

/-- A number of units that fits is the configured interval. -/
theorem configuredInterval_of_duration {intervalValue : UInt64}
    {intervalUnit : Str} {duration : ℤ}
    (htask : task.trigger = .interval intervalValue intervalUnit)
    (hfits : fits task = true) (h : intervalDuration intervalValue intervalUnit = some duration) :
    configuredInterval task = some duration := by
  rw [fits, htask] at hfits
  have hvalue : intervalValue.toNat < 2 ^ 63 := of_decide_eq_true hfits
  have hbmod : (intervalValue.toNat : ℤ).bmod (2 ^ 64) = intervalValue.toNat :=
    Int.bmod_eq_of_le (by omega) (by omega)
  rw [configuredInterval, htask]
  simp only [intervalDuration, hbmod] at h
  split_ifs at h
  exact h

/-- A task is found due only when the interval has passed since each time its rows tell. -/
theorem elapsed_of_due (hlawful : calendar.Lawful meets) {s : State} {read : Bool}
    {fixedLastRun : HashMap Str Str}
    (hstamped : ∀ row ∈ s.logs, ∃ t, meets t ∧ row.createdAt = calendar.format t)
    (htask : task ∈ config.tasks) (henabled : task.enabled = true)
    (hinformed : Informed calendar config s read task)
    (hdue : shouldTrigger calendar s.clock s.logs read task s.fixedLastRun =
      some (true, fixedLastRun))
    {row : AutomationLogEntry} (hrow : row ∈ s.logs) (hid : row.taskId = task.id) {t : ℤ}
    (ht : meets t) (hstamp : row.createdAt = calendar.format t) {d : ℤ}
    (hd : d ∈ configuredInterval task) : wholeSecond t + d ≤ s.clock := by
  obtain ⟨hfits, hread⟩ := hinformed henabled
  cases htrigger : task.trigger with
  | fixed weekdays times => rw [configuredInterval, htrigger] at hd; cases hd
  | cron expression => rw [configuredInterval, htrigger] at hd; cases hd
  | interval intervalValue intervalUnit =>
    have hparse : calendar.parse row.createdAt = some (wholeSecond t) := by
      rw [hstamp]
      exact hlawful.parse_format t ht
    rcases hread with rfl | hold
    · obtain ⟨last, hlast, hle⟩ := AutomationLog.le_getLastLogForTask hrow hid
      obtain ⟨u, hu, hlate⟩ := hstamped last (AutomationLog.getLastLogForTask_eq_some hlast).1
      have hseconds : wholeSecond t ≤ wholeSecond u :=
        hlawful.wholeSecond_le t u ht hu (by rw [← hstamp, ← hlate]; exact hle)
      simp only [shouldTrigger, htrigger, if_true, hlast, intervalDue, hlate,
        hlawful.parse_format u hu, Option.map_map, map_eq_some_iff] at hdue
      obtain ⟨duration, hduration, hpassed⟩ := hdue
      have hpassed : duration ≤ s.clock - wholeSecond u := by simpa using (Prod.mk.inj hpassed).1
      rw [configuredInterval_of_duration htrigger hfits hduration] at hd
      cases hd
      omega
    · have hyoung := hold row hrow hid
      by_contra hlt
      exact hyoung ⟨task, htask, henabled, hid.symm, d, hd, wholeSecond t, hparse, by omega⟩

end Decisions

/-! ## What every step keeps -/

/-- The run that the scheduler started at `t` for `task`. -/
structure Run.Of (run : Run) (task : AutomationTask) (t : ℤ) : Prop where
  task_eq : run.task = task
  started_eq : run.started = t
  automatic : run.automatic = true

variable {run : Run}

theorem Run.Of.passed {task : AutomationTask} {t now d : ℤ} (h : run.Of task t)
    (howes : ¬ run.Owes now) (hd : d ∈ configuredInterval task) : t + d ≤ now := by
  by_contra hlt
  rw [← h.task_eq] at hd
  exact howes ⟨h.automatic, d, hd, by rw [h.started_eq]; omega⟩

/-- The start of `task` at `t` is accounted for: its interval `d` has passed, its run has not ended,
or a row of the task tells a time not before it. -/
def Accounted (calendar : Calendar) (meets : ℤ → Prop) (s : State) (task : AutomationTask)
    (t d : ℤ) : Prop :=
  t + d ≤ s.clock ∨ (∃ run ∈ s.runs, run.Of task t ∧ run.ended = false) ∨
    ∃ row ∈ s.logs, row.taskId = task.id ∧
      ∃ u, meets u ∧ row.createdAt = calendar.format u ∧ t ≤ wholeSecond u

/-- The tasks that run. -/
def State.running (s : State) : List AutomationTask := s.runs.map (·.task)

/-- The starts made so far are told apart from the next one by the log and by the runs in
flight. -/
structure Kept (calendar : Calendar) (config : AutomationConfig) (meets : ℤ → Prop) (s : State) :
    Prop where
  stamped : ∀ row ∈ s.logs, ∃ t, meets t ∧ row.createdAt = calendar.format t
  held : ∀ task ∈ s.running, ∀ key ∈ automationRunKeys task, key ∈ s.automationRunningScopes
  separate : s.running.Pairwise fun task other =>
    (automationRunKeys task).Disjoint (automationRunKeys other)
  configured : ∀ task ∈ s.scheduler.tasks, task ∈ config.tasks
  dueEnabled : ∀ task ∈ s.scheduler.due, task.enabled = true
  started : ∀ start ∈ s.starts, start.1 ∈ config.tasks ∧ start.1.enabled = true
  accounted : ∀ start ∈ s.starts, ∀ d ∈ configuredInterval start.1,
    Accounted calendar meets s start.1 start.2 d
  due : ∀ task ∈ s.scheduler.due, ∀ start ∈ s.starts, start.1 = task →
    ∀ d ∈ configuredInterval task, start.2 + d ≤ s.clock ∨ ∃ run ∈ s.runs, run.Of task start.2
  apart : Apart s.starts

namespace Kept

variable {calendar : Calendar} {config : AutomationConfig} {meets : ℤ → Prop} {s : State}

theorem advance (h : Kept calendar config meets s) (elapsed : ℕ) :
    Kept calendar config meets (s.advance elapsed) := by
  refine { h with accounted := ?_, due := ?_ }
  · intro start hstart d hd
    rcases h.accounted start hstart d hd with hpassed | hopen
    · exact .inl (le_trans hpassed (by simp [State.advance]))
    · exact .inr hopen
  · intro task htask start hstart heq d hd
    rcases h.due task htask start hstart heq d hd with hpassed | hopen
    · exact .inl (le_trans hpassed (by simp [State.advance]))
    · exact .inr hopen

/-- The scheduler moves on without a decision to start. -/
theorem moveOn (h : Kept calendar config meets s) (scheduler : Scheduler)
    (fixedLastRun : HashMap Str Str) (htasks : ∀ task ∈ scheduler.tasks, task ∈ config.tasks)
    (hdue : scheduler.due = none) :
    Kept calendar config meets { s with scheduler := scheduler, fixedLastRun := fixedLastRun } := by
  refine { h with configured := htasks, dueEnabled := ?_, due := ?_ }
  · intro task htask
    rw [hdue] at htask
    cases htask
  · intro task htask
    rw [hdue] at htask
    cases htask

/-- Rows are deleted. -/
theorem delete (hlawful : calendar.Lawful meets) (h : Kept calendar config meets s)
    {logs : List AutomationLogEntry} (hsub : ∀ row ∈ logs, row ∈ s.logs)
    (hspares : Spares calendar config s.clock s.logs logs) :
    Kept calendar config meets { s with logs := logs } := by
  refine { h with stamped := fun row hrow => h.stamped row (hsub row hrow), accounted := ?_ }
  intro start hstart d hd
  obtain ⟨hmem, henabled⟩ := h.started start hstart
  rcases h.accounted start hstart d hd with hpassed | hrun | ⟨row, hrow, hid, u, hu, hstamp, hle⟩
  · exact .inl hpassed
  · exact .inr (.inl hrun)
  · by_cases hyoung : Young calendar config s.clock row
    · obtain ⟨kept, hkept, hkeptId, hlater⟩ := hspares row hrow hyoung
      obtain ⟨v, hv, hkeptStamp⟩ := h.stamped kept (hsub kept hkept)
      have hseconds : wholeSecond u ≤ wholeSecond v :=
        hlawful.wholeSecond_le u v hu hv (by rw [← hstamp, ← hkeptStamp]; exact hlater)
      exact .inr (.inr ⟨kept, hkept, hkeptId.trans hid, v, hv, hkeptStamp, hle.trans hseconds⟩)
    · -- no interval was running from the row
      have hparse : calendar.parse row.createdAt = some (wholeSecond u) := by
        rw [hstamp]
        exact hlawful.parse_format u hu
      refine .inl ?_
      by_contra hlt
      exact hyoung ⟨start.1, hmem, henabled, hid.symm, d, hd, wholeSecond u, hparse,
        by dsimp only at hlt; omega⟩

variable {tasks : List AutomationTask} {task : AutomationTask} {read : Bool}

/-- A task is found due. -/
theorem find (hlawful : calendar.Lawful meets) (h : Kept calendar config meets s)
    {fixedLastRun : HashMap Str Str}
    (hscheduler : s.scheduler = .evaluating (task :: tasks)) (henabled : task.enabled = true)
    (hinformed : Informed calendar config s read task)
    (hdue : shouldTrigger calendar s.clock s.logs read task s.fixedLastRun =
      some (true, fixedLastRun)) :
    Kept calendar config meets
      { s with fixedLastRun := fixedLastRun, scheduler := .spawning task tasks } := by
  have hconfigured := h.configured
  rw [hscheduler] at hconfigured
  have htask : task ∈ config.tasks := hconfigured task mem_cons_self
  refine { h with configured := hconfigured, dueEnabled := ?_, due := ?_ }
  · intro other hother
    cases hother
    exact henabled
  · intro other hother start hstart heq d hd
    cases hother
    subst heq
    rcases h.accounted start hstart d hd with hpassed | hrun | ⟨row, hrow, hid, u, hu, hstamp, hle⟩
    · exact .inl hpassed
    · obtain ⟨run, hrun, hof, -⟩ := hrun
      exact .inr ⟨run, hrun, hof⟩
    · have hpassed := elapsed_of_due hlawful h.stamped htask henabled hinformed hdue hrow hid hu
        hstamp hd
      exact .inl (by dsimp only; omega)

variable {automatic : Bool} {s' : State}

section

variable (h : Kept calendar config meets s)
include h

/-- A run begins only if no run holds a key of its task. -/
theorem spawned (hspawn : spawnAutomationTask task automatic s = some s') :
    (∀ other ∈ s.running, (automationRunKeys other).Disjoint (automationRunKeys task)) ∧
      s' = { s with
        automationRunningScopes := s.automationRunningScopes ++ automationRunKeys task
        runs := s.runs ++ [⟨task, s.clock, automatic, false⟩] } := by
  rw [spawnAutomationTask] at hspawn
  split_ifs at hspawn with hfree
  refine ⟨fun other hother key hkey hmem => hfree ?_, (some.inj hspawn).symm⟩
  exact any_eq_true.mpr ⟨key, hmem, decide_eq_true (h.held other hother key hkey)⟩

/-- A run begins. -/
theorem spawn (hspawn : spawnAutomationTask task automatic s = some s') :
    Kept calendar config meets s' := by
  obtain ⟨hdisjoint, rfl⟩ := h.spawned hspawn
  refine { h with held := ?_, separate := ?_, accounted := ?_, due := ?_ }
  · intro other hother key hkey
    rw [State.running, map_append, mem_append] at hother
    rcases hother with hother | hother
    · exact mem_append_left _ (h.held other hother key hkey)
    · rw [map_singleton, mem_singleton] at hother
      rw [hother] at hkey
      exact mem_append_right _ hkey
  · rw [State.running, map_append]
    refine pairwise_append.mpr ⟨h.separate, pairwise_singleton _ _, ?_⟩
    intro other hother new hnew
    rw [map_singleton, mem_singleton] at hnew
    rw [hnew]
    exact hdisjoint other hother
  · intro start hstart d hd
    rcases h.accounted start hstart d hd with hpassed | ⟨run, hrun, hrest⟩ | hrow
    · exact .inl hpassed
    · exact .inr (.inl ⟨run, mem_append_left _ hrun, hrest⟩)
    · exact .inr (.inr hrow)
  · intro other hother start hstart heq d hd
    rcases h.due other hother start hstart heq d hd with hpassed | ⟨run, hrun, hof⟩
    · exact .inl hpassed
    · exact .inr ⟨run, mem_append_left _ hrun, hof⟩

/-- The due task is started: its earlier starts are its interval ago. -/
theorem start (hscheduler : s.scheduler = .spawning task tasks)
    (hspawn : spawnAutomationTask task true s = some s') : Kept calendar config meets
      { s' with scheduler := .evaluating tasks, starts := (task, s'.clock) :: s'.starts } := by
  have hkept := h.spawn hspawn
  obtain ⟨hdisjoint, rfl⟩ := h.spawned hspawn
  have hdue := h.due
  have hconfigured := h.configured
  have henabled := h.dueEnabled
  rw [hscheduler] at hdue hconfigured henabled
  refine { hkept with configured := ?_, dueEnabled := ?_, started := ?_, accounted := ?_, due := ?_,
                      apart := ?_ }
  · exact fun other hother => hconfigured other (mem_cons_of_mem _ hother)
  · intro other hother
    cases hother
  · intro start hstart
    rcases mem_cons.mp hstart with rfl | hstart
    · exact ⟨hconfigured task mem_cons_self, henabled task rfl⟩
    · exact h.started start hstart
  · intro start hstart d hd
    rcases mem_cons.mp hstart with rfl | hstart
    · exact .inr (.inl ⟨_, mem_append_right _ (mem_singleton_self _), ⟨rfl, rfl, rfl⟩,
        rfl⟩)
    · exact hkept.accounted start hstart d hd
  · intro other hother
    cases hother
  · refine pairwise_cons.mpr ⟨?_, h.apart⟩
    intro start hstart heq d hd
    rcases hdue task rfl start hstart heq.symm d hd with hpassed | ⟨run, hrun, hof⟩
    · exact hpassed
    · -- the run of the earlier start would still hold the key of the task
      have hkeys := hdisjoint run.task (mem_map_of_mem hrun)
      rw [hof.task_eq] at hkeys
      exact absurd (hkeys mem_cons_self mem_cons_self) id

end

variable {index : ℕ} {other : Run}

theorem mem_set_of_ne (hother : other ∈ s.runs)
    (hindex : s.runs[index]? = some run) (hne : other ≠ run) (new : Run) :
    other ∈ s.runs.set index new := by
  obtain ⟨j, hj⟩ := mem_iff_getElem?.mp hother
  have hdiff : index ≠ j := by
    rintro rfl
    rw [hindex] at hj
    exact hne (some.inj hj).symm
  exact mem_iff_getElem?.mpr ⟨j, by rw [getElem?_set_ne hdiff, hj]⟩

section

variable (h : Kept calendar config meets s)
include h

/-- A run ends, with or without its row. -/
theorem ends (hclock : meets s.clock)
    (hindex : s.runs[index]? = some run) (rows : List AutomationLogEntry)
    (hrows : ∀ row ∈ rows, row.taskId = run.task.id ∧ row.createdAt = calendar.format s.clock)
    (hwritten : run.Owes s.clock → rows ≠ [] ∧ run.started ≤ wholeSecond s.clock) :
    Kept calendar config meets { s with
      runs := s.runs.set index { run with ended := true }
      logs := s.logs ++ rows } := by
  have hlt : index < s.runs.length := (List.getElem?_eq_some_iff.mp hindex).1
  have hrunning : (s.runs.set index { run with ended := true }).map (·.task) = s.running := by
    rw [State.running, map_set]
    refine ext_getElem? fun j => ?_
    rw [getElem?_set]
    split_ifs with hj hlong
    · rw [← hj, getElem?_map, hindex]
      rfl
    · rw [← hj, getElem?_map, hindex]
      exact absurd (by simpa using hlt) hlong
    · rfl
  have hended : { run with ended := true } ∈ s.runs.set index { run with ended := true } :=
    mem_set hlt _
  refine { h with stamped := ?_, held := ?_, separate := ?_, accounted := ?_, due := ?_ }
  · intro row hrow
    rcases mem_append.mp hrow with hrow | hrow
    · exact h.stamped row hrow
    · exact ⟨s.clock, hclock, (hrows row hrow).2⟩
  · rw [State.running, hrunning]
    exact h.held
  · rw [State.running, hrunning]
    exact h.separate
  · intro start hstart d hd
    rcases h.accounted start hstart d hd with hpassed | ⟨other, hother, hof, hopen⟩ | hrow
    · exact .inl hpassed
    · by_cases hsame : other = run
      · subst hsame
        by_cases howes : other.Owes s.clock
        · obtain ⟨hne, hle⟩ := hwritten howes
          obtain ⟨row, hrow⟩ := exists_mem_of_ne_nil rows hne
          obtain ⟨hid, hstamp⟩ := hrows row hrow
          rw [hof.started_eq] at hle
          rw [hof.task_eq] at hid
          exact .inr (.inr ⟨row, mem_append_right _ hrow, hid, s.clock, hclock, hstamp, hle⟩)
        · exact .inl (hof.passed howes hd)
      · exact .inr (.inl ⟨other, mem_set_of_ne hother hindex hsame _, hof, hopen⟩)
    · obtain ⟨row, hrow, hrest⟩ := hrow
      exact .inr (.inr ⟨row, mem_append_left _ hrow, hrest⟩)
  · intro task htask start hstart heq d hd
    rcases h.due task htask start hstart heq d hd with hpassed | ⟨other, hother, hof⟩
    · exact .inl hpassed
    · by_cases hsame : other = run
      · subst hsame
        exact .inr ⟨_, hended, hof.task_eq, hof.started_eq, hof.automatic⟩
      · exact .inr ⟨other, mem_set_of_ne hother hindex hsame _, hof⟩

/-- Two runs have no key in common. -/
theorem disjoint_of_ne {i j : ℕ}
    (hi : s.runs[i]? = some run) (hj : s.runs[j]? = some other) (hne : i ≠ j) :
    (automationRunKeys run.task).Disjoint (automationRunKeys other.task) := by
  have hpairs := pairwise_iff_getElem.mp (pairwise_map.mp h.separate)
  obtain ⟨hilt, rfl⟩ := List.getElem?_eq_some_iff.mp hi
  obtain ⟨hjlt, rfl⟩ := List.getElem?_eq_some_iff.mp hj
  rcases Nat.lt_or_gt_of_ne hne with hlt | hgt
  · exact hpairs i j hilt hjlt hlt
  · exact (hpairs j i hjlt hilt hgt).symm

/-- A run gives its keys back. -/
theorem release (hindex : s.runs[index]? = some run)
    (hundisturbed : run.Owes s.clock → run.ended = true ∧
      s.scheduler.due.map (·.id) ≠ some run.task.id) :
    Kept calendar config meets { s with
      runs := s.runs.eraseIdx index
      automationRunningScopes :=
        s.automationRunningScopes.filter fun scope =>
          decide (scope ∉ automationRunKeys run.task) } := by
  have hrest : ∀ other ∈ s.runs, other ≠ run → other ∈ s.runs.eraseIdx index := by
    intro other hother hne
    obtain ⟨j, hj⟩ := mem_iff_getElem?.mp hother
    refine mem_eraseIdx_iff_getElem?.mpr ⟨j, ?_, hj⟩
    rintro rfl
    rw [hindex] at hj
    exact hne (some.inj hj).symm
  refine { h with held := ?_, separate := ?_, accounted := ?_, due := ?_ }
  · intro task htask key hkey
    obtain ⟨other, hother, rfl⟩ := mem_map.mp htask
    obtain ⟨j, hne, hj⟩ := mem_eraseIdx_iff_getElem?.mp hother
    have hmem := h.held other.task (mem_map_of_mem (mem_iff_getElem?.mpr ⟨j, hj⟩)) key hkey
    exact mem_filter.mpr
      ⟨hmem, decide_eq_true fun hkey' => h.disjoint_of_ne hindex hj hne.symm hkey' hkey⟩
  · exact h.separate.sublist ((eraseIdx_sublist _ _).map _)
  · intro start hstart d hd
    rcases h.accounted start hstart d hd with hpassed | ⟨other, hother, hof, hopen⟩ | hrow
    · exact .inl hpassed
    · by_cases hsame : other = run
      · subst hsame
        refine .inl (hof.passed (fun howes => ?_) hd)
        rw [(hundisturbed howes).1] at hopen
        cases hopen
      · exact .inr (.inl ⟨other, hrest other hother hsame, hof, hopen⟩)
    · exact .inr (.inr hrow)
  · intro task htask start hstart heq d hd
    rcases h.due task htask start hstart heq d hd with hpassed | ⟨other, hother, hof⟩
    · exact .inl hpassed
    · by_cases hsame : other = run
      · subst hsame
        refine .inl (hof.passed (fun howes => (hundisturbed howes).2 ?_) hd)
        rw [htask, hof.task_eq]
        rfl
      · exact .inr ⟨other, hrest other hother hsame, hof⟩

end

/-- One step of the scheduler. -/
theorem schedule (hlawful : calendar.Lawful meets) (h : Kept calendar config meets s)
    {cleanup : LogCleanupConfig} {executed : Bool × Bool}
    (hundisturbed : Undisturbed calendar config s (.schedule read cleanup executed)) :
    Kept calendar config meets (schedule calendar config read cleanup executed s) := by
  obtain ⟨hspares, hinformed⟩ := hundisturbed
  have hconfigured := h.configured
  rw [logsAfter, act, Automation.schedule] at hspares
  rw [Automation.schedule]
  cases hscheduler : s.scheduler with
  | sleeping =>
    dsimp only
    split_ifs
    · exact h.moveOn (.evaluating config.tasks) s.fixedLastRun (fun _ => id) rfl
    · exact h
  | panicked => exact h
  | evaluating tasks =>
    rw [hscheduler] at hspares hconfigured hinformed
    cases tasks with
    | nil =>
      have hdeleted := h.delete hlawful (fun row => AutomationLog.mem_of_mem_cleanup) hspares
      exact hdeleted.moveOn .sleeping s.fixedLastRun (fun _ hmem => by cases hmem) rfl
    | cons task tasks =>
      have hrest : ∀ other ∈ tasks, other ∈ config.tasks := fun other hother =>
        hconfigured other (mem_cons_of_mem _ hother)
      dsimp only
      split_ifs with henabled
      · cases hdue : shouldTrigger calendar s.clock s.logs read task s.fixedLastRun with
        | none => exact h.moveOn .panicked s.fixedLastRun (fun _ hmem => by cases hmem) rfl
        | some decision =>
          obtain ⟨due, fixedLastRun⟩ := decision
          cases due with
          | true => exact h.find hlawful hscheduler henabled (hinformed task rfl) hdue
          | false => exact h.moveOn (.evaluating tasks) fixedLastRun hrest rfl
      · exact h.moveOn (.evaluating tasks) s.fixedLastRun hrest rfl
  | spawning task tasks =>
    rw [hscheduler] at hconfigured
    dsimp only
    cases hspawn : spawnAutomationTask task true s with
    | none =>
      exact h.moveOn (.evaluating tasks) s.fixedLastRun
        (fun other hother => hconfigured other (mem_cons_of_mem _ hother)) rfl
    | some s' => exact h.start hscheduler hspawn

theorem record (h : Kept calendar config meets s) (hclock : meets s.clock)
    {status detail : Str} {stored : Bool}
    (hundisturbed : Undisturbed calendar config s (.record index status detail stored)) :
    Kept calendar config meets (record calendar index status detail stored s) := by
  rw [Automation.record]
  cases hindex : s.runs[index]? with
  | none => exact h
  | some run =>
    have hwritten := hundisturbed run hindex
    dsimp only
    split_ifs with hended hstored
    · exact h
    · refine h.ends hclock hindex [_] ?_ fun howes => ⟨cons_ne_nil _ _, ?_⟩
      · intro row hrow
        rw [mem_singleton.mp hrow]
        exact ⟨rfl, rfl⟩
      · exact ((hwritten howes).resolve_left hended).2
    · have hnone := h.ends hclock hindex [] (fun row hrow => by cases hrow) fun howes =>
        absurd ((hwritten howes).resolve_left hended).1 hstored
      rwa [append_nil] at hnone

/-- Every step that does not disturb the history keeps it. -/
theorem step (hlawful : calendar.Lawful meets) (h : Kept calendar config meets s) {event : Event}
    (hclock : meets (s.clock + event.elapsed))
    (hundisturbed : Undisturbed calendar config (s.advance event.elapsed) event.action) :
    Kept calendar config meets (step calendar config s event).2 := by
  have hnow := h.advance event.elapsed
  rw [Automation.step]
  dsimp only
  cases haction : event.action with
  | schedule read cleanup executed =>
    rw [haction] at hundisturbed
    exact hnow.schedule hlawful hundisturbed
  | record index status detail stored =>
    rw [haction] at hundisturbed
    exact hnow.record hclock hundisturbed
  | release index =>
    rw [haction] at hundisturbed
    rw [act, Automation.release]
    cases hindex : (s.advance event.elapsed).runs[index]? with
    | none => exact hnow
    | some run => exact hnow.release hindex (hundisturbed run hindex)
  | test taskId =>
    rw [act, test]
    cases config.tasks.find? fun task => task.id = taskId with
    | none => exact hnow
    | some task =>
      dsimp only
      cases hspawn : spawnAutomationTask task false (s.advance event.elapsed) with
      | none => exact hnow
      | some s' => exact hnow.spawn hspawn
  | clear taskType status lineId startDate endDate =>
    rw [haction] at hundisturbed
    exact hnow.delete hlawful (fun row => AutomationLog.mem_of_mem_clear) hundisturbed

end Kept

/-! ## Whole runs -/

/-- The scheduler when the process starts, with the log it finds. -/
def State.start (logs : List AutomationLogEntry) (clock : ℤ) : State where
  logs := logs
  automationRunningScopes := []
  runs := []
  scheduler := .sleeping
  fixedLastRun := ∅
  clock := clock
  starts := []

theorem Kept.initial (calendar : Calendar) (config : AutomationConfig) {meets : ℤ → Prop}
    {logs : List AutomationLogEntry}
    (hlogs : ∀ row ∈ logs, ∃ t, meets t ∧ row.createdAt = calendar.format t) (clock : ℤ) :
    Kept calendar config meets (State.start logs clock) where
  stamped := hlogs
  held _ hmem := by cases hmem
  separate := Pairwise.nil
  configured _ hmem := by cases hmem
  dueEnabled _ hmem := by cases hmem
  started _ hmem := by cases hmem
  accounted _ hmem := by cases hmem
  due _ hmem := by cases hmem
  apart := Pairwise.nil

/-- In a run that never disturbs the history of a task whose interval is running, the automatic
starts of every task are its interval apart. -/
theorem starts_apart (calendar : Calendar) (config : AutomationConfig) (meets : ℤ → Prop)
    (hlawful : calendar.Lawful meets) (logs : List AutomationLogEntry)
    (hlogs : ∀ row ∈ logs, ∃ t, meets t ∧ row.createdAt = calendar.format t) (clock : ℤ)
    (events : List Event) (hsteps : Machine.Along (step calendar config)
      (fun s event => meets (s.clock + event.elapsed) ∧
        Undisturbed calendar config (s.advance event.elapsed) event.action)
      (State.start logs clock) events) :
    Apart (Machine.run (step calendar config) (State.start logs clock) events).starts := by
  have hkept := Machine.run_invariant_along (step calendar config)
    (Kept.initial calendar config hlogs clock)
    (fun s event hstep (h : Kept calendar config meets s) => h.step hlawful hstep.1 hstep.2) hsteps
  exact hkept.apart

/-! ### One task -/

/-- Local times of the first months of 2026. -/
def times2026 : List (ℤ × Str) :=
  [(nanoseconds 1767225600, "2026-01-01 08:00:00".toList),
    (nanoseconds 1767225605, "2026-01-01 08:00:05".toList),
    (nanoseconds 1767312005, "2026-01-02 08:00:05".toList),
    (nanoseconds 1775088005, "2026-04-02 08:00:05".toList)]

/-- The calendar at these times. -/
def calendar2026 : Calendar where
  format t := ((times2026.find? fun entry => entry.1 == t).map (·.2)).getD []
  parse text := (times2026.find? fun entry => entry.2 == text).map (·.1)
  formatTime _ := []
  formatMinute _ := []
  minute _ := 0
  hour _ := 0
  day _ := 0
  month _ := 0
  numberFromMonday _ := 0
  numberFromSunday _ := 0
  earliest := 0

/-- An instant of `times2026`. -/
def In2026 (t : ℤ) : Prop := t ∈ times2026.map (·.1)

instance : DecidablePred In2026 := fun t => inferInstanceAs (Decidable (t ∈ times2026.map (·.1)))

theorem calendar2026_lawful : calendar2026.Lawful In2026 where
  parse_format t ht := by
    have hall : ∀ t ∈ times2026.map (·.1),
        calendar2026.parse (calendar2026.format t) = some (wholeSecond t) := by decide +kernel
    exact hall t ht
  wholeSecond_le t u ht hu h := by
    have hall : ∀ t ∈ times2026.map (·.1), ∀ u ∈ times2026.map (·.1),
        calendar2026.format t ≤ calendar2026.format u → wholeSecond t ≤ wholeSecond u := by
      decide +kernel
    exact hall t ht u hu h

/-- A task that keeps a SIM alive, every so many days. -/
def keepAlive (days : UInt64) : AutomationConfig where
  enabled := true
  tasks := [{
    id := "keep".toList
    name := "keep alive".toList
    enabled := true
    trigger := .interval days "days".toList
    target := none
    action := .sendSms }]

/-- A step of the scheduler with the default cleanup. -/
def tick (elapsed : ℕ) : Event := ⟨elapsed, .schedule true defaultLogCleanup (true, true)⟩

/-- The first round starts the task, which takes five seconds. 91 days later two more rounds
follow. -/
def rounds : List Event :=
  [tick 0, tick 0, tick 0, tick 0, ⟨5000000000, .record 0 "success".toList [] true⟩,
    ⟨0, .release 0⟩, tick 7862400000000000, tick 0, tick 0, tick 0, tick 0, tick 0]

/-- A task that runs every 90 days is started in both rounds, and the cleanup takes its first row
only then. -/
theorem starts_apart_ninety_days :
    (Machine.run (step calendar2026 (keepAlive 90)) (State.start [] (nanoseconds 1767225600))
      rounds).starts.map (·.2) = [nanoseconds 1775088005, nanoseconds 1767225600] ∧
    Apart (Machine.run (step calendar2026 (keepAlive 90)) (State.start [] (nanoseconds 1767225600))
      rounds).starts :=
  ⟨by decide +kernel, starts_apart calendar2026 (keepAlive 90) In2026 calendar2026_lawful []
    (by simp) _ rounds (by decide +kernel)⟩

/-- The default cleanup deletes the row of a task that runs every 180 days after 90 days, and the
task is started again. -/
theorem cleanup_starts_early : ¬ ∀ (config : AutomationConfig) (events : List Event),
    Machine.Along (step calendar2026 config) (fun s event => In2026 (s.clock + event.elapsed))
      (State.start [] (nanoseconds 1767225600)) events →
    Apart (Machine.run (step calendar2026 config) (State.start [] (nanoseconds 1767225600))
      events).starts := by
  intro h
  have hearly := h (keepAlive 180) rounds (by decide +kernel)
  revert hearly
  decide +kernel

end Automation

end SimMaster
