import SimMaster.AutomationLog
import SimMaster.HashMap
import SimMaster.Machine
import SimMaster.SipHeaders

/-!
# The automation scheduler

Every 30 seconds the scheduler goes over the configured tasks, decides for each whether it is due
and starts it, and then cleans up the log. A started task runs on its own: it holds its keys in
`automation_running_scopes`, writes its row to the log when it ends and gives the keys back. Users
start tasks by hand and clear the log. All of these take turns, also between the decision on a task
and its start, so the scheduler is a state machine with one step for each.

An `Interval` task is due when its last row is old enough, and when no row is found: that is how a
task that never ran is started, and it is also what the scheduler makes of a failed read.

`starts` lists the starts the scheduler made, the last one first. The code keeps no such list.
-/

namespace SimMaster

open Rust

/-! ## Configuration -/

inductive AutomationTarget where
  | modemLine (lineId : Str)
  | standaloneSimSlot (slotId : Str)
  deriving DecidableEq

inductive AutomationTrigger where
  | fixed (weekdays : List ℕ) (times : List Str)
  | interval (intervalValue : UInt64) (intervalUnit : Str)
  | cron (expression : Str)
  deriving DecidableEq

inductive AutomationAction where
  | restartBaseband
  | rebootDevice
  | sendSms
  | consumeData
  | dialCall
  deriving DecidableEq

def AutomationAction.taskType : AutomationAction → Str
  | restartBaseband => "restart_baseband".toList
  | rebootDevice => "reboot_device".toList
  | sendSms => "send_sms".toList
  | consumeData => "consume_data".toList
  | dialCall => "dial_call".toList

structure AutomationTask where
  id : Str
  name : Str
  enabled : Bool
  trigger : AutomationTrigger
  target : Option AutomationTarget
  action : AutomationAction
  deriving DecidableEq

structure AutomationConfig where
  enabled : Bool
  tasks : List AutomationTask

structure LogCleanupConfig where
  retentionDaysEnabled : Bool
  retentionDays : ℕ
  maxEntriesEnabled : Bool
  maxEntries : ℕ

def defaultLogCleanup : LogCleanupConfig := ⟨true, 90, true, 10000⟩

namespace Automation

/-- `target_line_id`. -/
def targetLineId : Option AutomationTarget → Option Str
  | some (.modemLine lineId) => if (trim lineId).isEmpty then none else some (trim lineId)
  | _ => none

/-! ## Triggers -/

def cronFieldMatches (field : Str) (value min max : ℕ) : Bool :=
  (splitBy (· == ',') field).any fun part =>
    let part := trim part
    let (base, step) := match splitOnce '/' part with
      | none => (part, 1)
      | some (base, step) => (base, (parseUnsigned u32Max step).getD 0)
    if step = 0 then false
    else
      let (first, last) :=
        if base = "*".toList then (min, max)
        else match splitOnce '-' base with
          | some (a, b) =>
            ((parseUnsigned u32Max a).getD (max + 1), (parseUnsigned u32Max b).getD 0)
          | none =>
            let n := (parseUnsigned u32Max base).getD (max + 1)
            (n, n)
      first ≤ value && value ≤ last && (value - first) % step == 0

def cronMatches (calendar : Calendar) (expression : Str) (now : ℤ) : Bool :=
  match splitWhitespace expression with
  | [minute, hour, day, month, weekday] =>
    cronFieldMatches minute (calendar.minute now) 0 59 &&
      cronFieldMatches hour (calendar.hour now) 0 23 &&
      cronFieldMatches day (calendar.day now) 1 31 &&
      cronFieldMatches month (calendar.month now) 1 12 &&
      cronFieldMatches weekday (calendar.numberFromSunday now - 1) 0 6
  | _ => false

/-- The seconds of a unit, or `none` for a unit the scheduler does not know. -/
def unitSeconds (intervalUnit : Str) : Option ℤ :=
  if intervalUnit = "mins".toList then some 60
  else if intervalUnit = "hours".toList then some 3600
  else if intervalUnit = "days".toList then some 86400
  else none

/-- The age the last row must have, in nanoseconds. The value is cast to `i64`; `none` is a duration
that cannot be represented, on which the scheduler panics. -/
def intervalDuration (intervalValue : UInt64) (intervalUnit : Str) : Option ℤ :=
  let seconds := match unitSeconds intervalUnit with
    | some unit => (intervalValue.toNat : ℤ).bmod (2 ^ 64) * unit
    | none => 180 * 86400
  if |seconds| ≤ 9223372036854775 then some (nanoseconds seconds) else none

/-- Whether an `Interval` task is due after its last row. -/
def intervalDue (calendar : Calendar) (now : ℤ) (intervalValue : UInt64) (intervalUnit : Str) :
    Option AutomationLogEntry → Option Bool
  | none => some true
  | some log =>
    match calendar.parse log.createdAt with
    | none => some true
    | some lastRunTime =>
      (intervalDuration intervalValue intervalUnit).map fun duration =>
        decide (duration ≤ now - lastRunTime)

/-- Due once in a minute: the minute is remembered. -/
def oncePerMinute (taskId minute : Str) (fixedLastRun : HashMap Str Str) : Bool × HashMap Str Str :=
  if fixedLastRun.lookup taskId = some minute then (false, fixedLastRun)
  else (true, fixedLastRun.insert taskId minute)

/-- `should_trigger`, with the minutes remembered. `read` says whether the log can be read; `none`
is a panic. -/
def shouldTrigger (calendar : Calendar) (now : ℤ) (logs : List AutomationLogEntry) (read : Bool)
    (task : AutomationTask) (fixedLastRun : HashMap Str Str) : Option (Bool × HashMap Str Str) :=
  match task.trigger with
  | .fixed weekdays times =>
    if calendar.numberFromMonday now ∈ weekdays ∧ calendar.formatTime now ∈ times then
      some (oncePerMinute task.id (calendar.formatMinute now) fixedLastRun)
    else some (false, fixedLastRun)
  | .interval intervalValue intervalUnit =>
    let lastLog := if read then AutomationLog.getLastLogForTask task.id logs else none
    (intervalDue calendar now intervalValue intervalUnit lastLog).map (·, fixedLastRun)
  | .cron expression =>
    if cronMatches calendar expression now then
      some (oncePerMinute task.id (calendar.formatMinute now) fixedLastRun)
    else some (false, fixedLastRun)

/-! ## Runs -/

def automationRunKeys (task : AutomationTask) : List Str :=
  ["task:".toList ++ trim task.id,
    match task.target with
    | some (.modemLine lineId) => "line:".toList ++ trim lineId
    | some (.standaloneSimSlot slotId) => "reader:".toList ++ trim slotId
    | none => "device".toList]

/-- A task that runs, with the guard it holds. -/
structure Run where
  task : AutomationTask
  started : ℤ
  /-- Started by the scheduler. -/
  automatic : Bool
  /-- Its row has been written, or the writing has failed. -/
  ended : Bool

inductive Scheduler where
  /-- Between two rounds. -/
  | sleeping
  /-- The tasks of the round that are left. -/
  | evaluating (tasks : List AutomationTask)
  /-- A task has been found due, and the others are left. -/
  | spawning (task : AutomationTask) (tasks : List AutomationTask)
  | panicked

structure State where
  logs : List AutomationLogEntry
  automationRunningScopes : List Str
  runs : List Run
  scheduler : Scheduler
  fixedLastRun : HashMap Str Str
  clock : ℤ
  starts : List (AutomationTask × ℤ)

/-- `AutomationRunGuard::try_acquire` and the task that is spawned with the guard. -/
def spawnAutomationTask (task : AutomationTask) (automatic : Bool) (s : State) : Option State :=
  let keys := automationRunKeys task
  if keys.any (· ∈ s.automationRunningScopes) then none
  else some { s with
    automationRunningScopes := s.automationRunningScopes ++ keys
    runs := s.runs ++ [⟨task, s.clock, automatic, false⟩] }

/-- One step of the scheduler. -/
def schedule (calendar : Calendar) (config : AutomationConfig) (read : Bool)
    (cleanup : LogCleanupConfig) (executed : Bool × Bool) (s : State) : State :=
  match s.scheduler with
  | .sleeping => if config.enabled then { s with scheduler := .evaluating config.tasks } else s
  | .evaluating [] =>
    let retentionDays := if cleanup.retentionDaysEnabled then some cleanup.retentionDays else none
    let maxEntries := if cleanup.maxEntriesEnabled then some cleanup.maxEntries else none
    { s with
      logs := AutomationLog.cleanupAutomationLogs calendar s.clock retentionDays maxEntries executed
        s.logs
      scheduler := .sleeping }
  | .evaluating (task :: tasks) =>
    if task.enabled then
      match shouldTrigger calendar s.clock s.logs read task s.fixedLastRun with
      | none => { s with scheduler := .panicked }
      | some (true, fixedLastRun) =>
        { s with fixedLastRun := fixedLastRun, scheduler := .spawning task tasks }
      | some (false, fixedLastRun) =>
        { s with fixedLastRun := fixedLastRun, scheduler := .evaluating tasks }
    else { s with scheduler := .evaluating tasks }
  | .spawning task tasks =>
    match spawnAutomationTask task true s with
    | none => { s with scheduler := .evaluating tasks }
    | some s => { s with scheduler := .evaluating tasks, starts := (task, s.clock) :: s.starts }
  | .panicked => s

/-- The end of `execute_task`: the row is written. `stored` says whether the insertion succeeds;
its failure is ignored. -/
def record (calendar : Calendar) (index : ℕ) (status detail : Str) (stored : Bool) (s : State) :
    State :=
  match s.runs[index]? with
  | none => s
  | some run =>
    if run.ended then s
    else
      { s with
        runs := s.runs.set index { run with ended := true }
        logs :=
          if stored then
            AutomationLog.insertAutomationLog calendar s.clock
              { lineId := targetLineId run.task.target, taskId := run.task.id
                taskName := run.task.name, taskType := run.task.action.taskType, status, detail
                createdAt := [] } s.logs
          else s.logs }

/-- The guard is dropped. A run that panics drops it without a row. -/
def release (index : ℕ) (s : State) : State :=
  match s.runs[index]? with
  | none => s
  | some run =>
    { s with
      runs := s.runs.eraseIdx index
      automationRunningScopes :=
        s.automationRunningScopes.filter fun scope => decide (scope ∉ automationRunKeys run.task) }

/-- `test_automation_task_handler`: a start by hand. -/
def test (config : AutomationConfig) (taskId : Str) (s : State) : State :=
  match config.tasks.find? fun task => task.id = taskId with
  | none => s
  | some task => (spawnAutomationTask task false s).getD s

inductive Action where
  | schedule (read : Bool) (cleanup : LogCleanupConfig) (executed : Bool × Bool)
  | record (index : ℕ) (status detail : Str) (stored : Bool)
  | release (index : ℕ)
  | test (taskId : Str)
  | clear (taskType status lineId startDate endDate : Str)

/-- Time passes, and something happens. -/
structure Event where
  elapsed : ℕ
  action : Action

def State.advance (s : State) (elapsed : ℕ) : State := { s with clock := s.clock + elapsed }

def act (calendar : Calendar) (config : AutomationConfig) (s : State) : Action → State
  | .schedule read cleanup executed => schedule calendar config read cleanup executed s
  | .record index status detail stored => record calendar index status detail stored s
  | .release index => release index s
  | .test taskId => test config taskId s
  | .clear taskType status lineId startDate endDate =>
    { s with logs :=
        AutomationLog.clearAutomationLogs taskType status lineId startDate endDate s.logs }

def step (calendar : Calendar) (config : AutomationConfig) (s : State) (event : Event) :
    Unit × State :=
  ((), act calendar config (s.advance event.elapsed) event.action)

end Automation

end SimMaster
